import ContainerCP.Proxy.ProxyConfigBuilder

/-! `NginxProxyProvider`: how the routes of the SQL console are written into the config of
the panel, and taken out of it. -/
namespace ContainerCP.Proxy

abbrev OperationResult := Except Bytes Bytes

/-- `route_begin_marker`. -/
def routeBeginMarker (launchId : Bytes) : Bytes := routeBegin launchId ++ [newline]

/-- `route_end_marker`. -/
def routeEndMarker (launchId : Bytes) : Bytes := routeEnd launchId ++ [newline]

/-- `erase_sql_console_route`. Nothing is erased where a marker is missing. -/
def eraseSqlConsoleRoute (config launchId : Bytes) : Option Bytes :=
  match cutAtText (routeBeginMarker launchId) config with
  | none => none
  | some (before, behind) =>
      match cutAtText (routeEndMarker launchId) (routeBeginMarker launchId ++ behind) with
      | none => none
      | some (_, after) => some (before ++ after)

/-- `insert_before_final_server_close`. -/
def insertBeforeFinalServerClose (config block : Bytes) : Option Bytes :=
  (cutAtLastText (newline :: bytes "\x7d") config).map fun cut =>
    cut.1 ++ [newline] ++ block ++ bytes "\x7d" ++ cut.2

/-- How the steps of a call go: whether the proxy joins the network of the site, whether
the config can be read, what a write leaves of its content in the file, and what nginx
says to the config and to the reload. -/
structure Attempt where
  connected : Bool
  readable : Bool
  stored : Bytes → Bytes
  valid : Bool
  reloaded : Bool

/-- The file behind a new config: where nginx refuses it, the old one is written again. -/
def install (attempt : Attempt) (original config : Bytes) (refused notReloaded : OperationResult)
    (done : OperationResult) : OperationResult × Bytes :=
  if !attempt.valid then (refused, attempt.stored original)
  else if !attempt.reloaded then (notReloaded, attempt.stored original)
  else (done, attempt.stored config)

/-- `upsert_sql_console_route`, on the content of the config file. -/
def upsertSqlConsoleRoute (attempt : Attempt) (launchId : Bytes) (databaseId : UInt64)
    (adminerUpstream authUpstream siteNetwork file : Bytes) : OperationResult × Bytes :=
  let block := sqlConsoleRouteLocations launchId databaseId adminerUpstream authUpstream
  let config := if attempt.readable then file else []
  if block = [] then (.error (bytes "Invalid SQL Console proxy route"), file)
  else if siteNetwork ≠ [] && !attempt.connected then
    (.error (bytes "Failed to connect central proxy to SQL Console site network"), file)
  else if config = [] then (.error (bytes "Admin proxy config not found"), file)
  else
    match insertBeforeFinalServerClose ((eraseSqlConsoleRoute config launchId).getD config) block with
    | none => (.error (bytes "Admin proxy config cannot accept SQL Console route"), file)
    | some new =>
        install attempt config new (.error (bytes "SQL Console proxy route failed nginx validation"))
          (.error (bytes "SQL Console proxy route reload failed")) (.ok (bytes "SQL Console proxy route installed"))

/-- `remove_sql_console_route`, on the content of the config file. -/
def removeSqlConsoleRoute (attempt : Attempt) (launchId file : Bytes) : OperationResult × Bytes :=
  let config := if attempt.readable then file else []
  if config = [] then (.ok (bytes "SQL Console proxy route absent"), file)
  else
    match eraseSqlConsoleRoute config launchId with
    | none => (.ok (bytes "SQL Console proxy route absent"), file)
    | some new =>
        install attempt config new (.error (bytes "SQL Console proxy route removal failed nginx validation"))
          (.error (bytes "SQL Console proxy route removal reload failed"))
          (.ok (bytes "SQL Console proxy route removed"))

/-! ## Sequences of calls -/

inductive Call where
  | upsert (launchId : Bytes) (databaseId : UInt64) (adminerUpstream authUpstream siteNetwork : Bytes)
  | remove (launchId : Bytes)
  deriving DecidableEq

namespace Call

def launchId : Call → Bytes
  | upsert launchId _ _ _ _ => launchId
  | remove launchId => launchId

def isUpsert : Call → Bool
  | upsert _ _ _ _ _ => true
  | remove _ => false

def run (call : Call) (attempt : Attempt) (file : Bytes) : OperationResult × Bytes :=
  match call with
  | upsert launchId databaseId adminerUpstream authUpstream siteNetwork =>
      upsertSqlConsoleRoute attempt launchId databaseId adminerUpstream authUpstream siteNetwork file
  | remove launchId => removeSqlConsoleRoute attempt launchId file

end Call

end ContainerCP.Proxy
