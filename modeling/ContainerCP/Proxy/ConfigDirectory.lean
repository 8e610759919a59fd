import ContainerCP.Proxy.NginxProxyProvider
import Mathlib.Logic.Function.Basic

/-! `NginxProxyProvider`: the operations on the directory of the configs. -/
namespace ContainerCP.Proxy

/-- The files of the directory, by name. -/
abbrev Files := Bytes → Option Bytes

structure ReverseProxy where
  domain : Bytes
  upstream : Bytes
  siteId : UInt64
  deriving DecidableEq

/-- `ReverseProxyManager::find_by_domain`. -/
def findByDomain (proxies : List ReverseProxy) (domain : Bytes) : Option ReverseProxy :=
  proxies.find? fun proxy => proxy.domain = domain

/-- `config_path`, inside the directory. -/
def configName (domain : Bytes) : Bytes := domain ++ bytes ".conf"

/-! ## The default server -/

def defaultName : Bytes := bytes "00-default.conf"

def defaultConf : Bytes :=
  unlines [bytes "server \x7b", bytes "    listen 80 default_server;", bytes "    server_name _;",
    bytes "    return 404;"] ++ serverEnd

/-- What Docker says of the container of the proxy: whether it exists, runs, is configured
as it should be, comes up when it is started, and can be created and comes up then. -/
structure Container where
  present : Bool
  running : Bool
  configValid : Bool
  startable : Bool
  creatable : Bool
  ready : Bool

/-- `ensure_central_proxy`; `stored` is what a write leaves of its content in the file. -/
def ensureCentralProxy (container : Container) (stored : Bytes → Bytes) (files : Files) : OperationResult × Files :=
  if container.present && container.running && container.configValid then (.ok [], files)
  else if container.present && container.configValid && container.startable then (.ok (bytes "Container started"), files)
  else
    let files := if files defaultName = none then Function.update files defaultName (some (stored defaultConf)) else files
    if !container.creatable then (.error (bytes "Failed to create central proxy container"), files)
    else if container.ready then (.ok (bytes "Central proxy created and running"), files)
    else (.ok (bytes "Central proxy created (waiting for container)"), files)

/-! ## Configs that are built anew -/

def createParams (proxy : ReverseProxy) : Params where
  domain := proxy.domain
  upstream := proxy.upstream

/-- `create_proxy`. -/
def createProxy (proxy : ReverseProxy) (stored : Bytes → Bytes) (files : Files) : OperationResult × Files :=
  if proxy.upstream = [] then (.error (bytes "upstream is required for proxy creation"), files)
  else (.ok [], Function.update files (configName proxy.domain) (some (stored (build (createParams proxy)))))

/-- How the exchange of a config goes: whether the copy, the first rename, the rename back
and the removal of the copy go through, and what nginx says. -/
structure Exchange where
  copied : Bool
  renamed : Bool
  stored : Bytes → Bytes
  valid : Bool
  restored : Bool
  cleaned : Bool
  reloaded : Except Bytes Unit

/-- The exchange of a config, with a copy of the old one. The first component is `none`
where an exception ends it. -/
def exchangeConfig (exchange : Exchange) (domain name old config newSuffix bakSuffix : Bytes) (files : Files) :
    Option OperationResult × Files :=
  if !exchange.copied then (none, files)
  else
    let files := Function.update files (name ++ bakSuffix) (some old)
    let files := Function.update files (name ++ newSuffix) (some (exchange.stored config))
    if !exchange.renamed then (none, files)
    else
      let files := Function.update files (name ++ newSuffix) none
      let files := Function.update files name (some (exchange.stored config))
      if !exchange.valid then
        if !exchange.restored then (none, files)
        else
          (some (.error (domain ++ bytes ": nginx config validation failed, rolled back")),
            Function.update (Function.update files (name ++ bakSuffix) none) name (some old))
      else if !exchange.cleaned then (none, files)
      else
        let files := Function.update files (name ++ bakSuffix) none
        match exchange.reloaded with
        | .error message => (some (.error (domain ++ bytes ": Config updated but reload failed: " ++ message)), files)
        | .ok () => (some (.ok []), files)

/-- The certificate of an attachment. -/
structure Attachment where
  certPath : Bytes
  keyPath : Bytes
  redirect : Bool
  certExists : Bool
  keyExists : Bool

def attachParams (webmailUpstream domain upstream : Bytes) (attachment : Attachment) : Params where
  domain := domain
  upstream := upstream
  https := true
  redirect := attachment.redirect
  certPath := attachment.certPath
  keyPath := attachment.keyPath
  webmailUpstream := webmailUpstream

/-- `attach_certificate`. -/
def attachCertificate (webmailUpstream : Bytes) (proxies : List ReverseProxy) (domain : Bytes) (attachment : Attachment)
    (exchange : Exchange) (files : Files) : Option OperationResult × Files :=
  match files (configName domain) with
  | none => (some (.error (bytes "Proxy config not found for " ++ domain)), files)
  | some old =>
      let upstream := ((findByDomain proxies domain).map ReverseProxy.upstream).getD []
      if upstream = [] then
        (some (.error (domain ++ bytes ": cannot attach certificate: upstream not found in ReverseProxyManager")), files)
      else if !attachment.certExists then
        (some (.error (domain ++ bytes ": Certificate file not found: " ++ attachment.certPath)), files)
      else if !attachment.keyExists then
        (some (.error (domain ++ bytes ": Private key file not found: " ++ attachment.keyPath)), files)
      else
        exchangeConfig exchange domain (configName domain) old
          (build (attachParams webmailUpstream domain upstream attachment)) (bytes ".new") (bytes ".bak") files

/-- `detach_certificate`. -/
def detachCertificate (proxies : List ReverseProxy) (domain : Bytes) (exchange : Exchange) (files : Files) :
    Option OperationResult × Files :=
  match files (configName domain) with
  | none => (some (.ok []), files)
  | some old =>
      let upstream := ((findByDomain proxies domain).map ReverseProxy.upstream).getD []
      if upstream = [] then (some (.error (domain ++ bytes ": cannot detach certificate: upstream not found")), files)
      else
        exchangeConfig exchange domain (configName domain) old (buildHttpBlock domain upstream) (bytes ".detach_new")
          (bytes ".detach_bak") files

/-! ## The declarative sync -/

/-- What the certificate store says of a site. -/
structure SiteCertificate where
  loaded : Bool
  active : Bool
  httpsEnabled : Bool
  redirectEnabled : Bool
  fullchainPath : Bytes
  privkeyPath : Bytes
  filesExist : Bool

def syncParams (webmailUpstream : Bytes) (certificates : UInt64 → SiteCertificate) (proxy : ReverseProxy) : Params :=
  let certificate := certificates proxy.siteId
  let params : Params := { domain := proxy.domain, upstream := proxy.upstream, webmailUpstream := webmailUpstream }
  if certificate.loaded && certificate.active && certificate.httpsEnabled then
    { params with
      https := certificate.filesExist
      redirect := certificate.redirectEnabled
      certPath := certificate.fullchainPath
      keyPath := certificate.privkeyPath }
  else params

/-- How a sync goes: what the store says, whether the removal of orphans goes through and
which of them it removes where it does not, what a write leaves, and what nginx says. -/
structure Sync where
  certificates : UInt64 → SiteCertificate
  swept : Bool
  removed : Bytes → Bool
  stored : Bytes → Bytes
  invalid : Nat
  reloaded : Except Bytes Unit

/-- A file that the sync takes for the config of a proxy that is no more. -/
def isOrphan (sitesDir : Bytes) (proxies : List ReverseProxy) (name : Bytes) : Bool :=
  (cutAtText (bytes ".conf") (sitesDir ++ name)).isSome && !(proxies.map fun proxy => configName proxy.domain).contains name

/-- The configs of all proxies, written one after the other. -/
def generateConfigs (webmailUpstream : Bytes) (sync : Sync) (proxies : List ReverseProxy) (files : Files) : Files :=
  proxies.foldl (fun files proxy => Function.update files (configName proxy.domain)
    (some (sync.stored (build (syncParams webmailUpstream sync.certificates proxy))))) files

/-- `sync_all_proxies`. -/
def syncAllProxies (sitesDir webmailUpstream : Bytes) (proxies : List ReverseProxy) (sync : Sync) (files : Files) :
    Option OperationResult × Files :=
  if !sync.swept then (none, fun name => if isOrphan sitesDir proxies name && sync.removed name then none else files name)
  else
    let files := generateConfigs webmailUpstream sync proxies
      fun name => if isOrphan sitesDir proxies name then none else files name
    if sync.invalid ≠ 0 then
      (some (.error (decimal sync.invalid ++ bytes " proxy config(s) have validation errors")), files)
    else
      match sync.reloaded with
      | .error message => (some (.error (bytes "Proxy reload failed after sync: " ++ message)), files)
      | .ok () => (some (.ok (bytes "Proxy sync completed")), files)

/-! ## Operations -/

inductive Operation where
  | ensureCentralProxy (container : Container) (stored : Bytes → Bytes)
  | createProxy (proxy : ReverseProxy) (stored : Bytes → Bytes)
  | attachCertificate (domain : Bytes) (attachment : Attachment) (exchange : Exchange)
  | detachCertificate (domain : Bytes) (exchange : Exchange)
  | syncAllProxies (sync : Sync)
  | sqlConsoleRoute (domain : Bytes) (call : Call) (attempt : Attempt)

/-- What an operation works with: the directory, the upstream of the web mail, and the
records of the proxies at that time. -/
structure Context where
  sitesDir : Bytes
  webmailUpstream : Bytes
  proxies : List ReverseProxy

/-- A call about a route, on the file of its domain. -/
def routeCall (domain : Bytes) (call : Call) (attempt : Attempt) (files : Files) : OperationResult × Files :=
  let result := call.run { attempt with readable := attempt.readable && (files (configName domain)).isSome }
    ((files (configName domain)).getD [])
  (result.1, if (files (configName domain)).isSome then Function.update files (configName domain) (some result.2) else files)

def Operation.run (context : Context) (files : Files) : Operation → Option OperationResult × Files
  | .ensureCentralProxy container stored => (Proxy.ensureCentralProxy container stored files).map some id
  | .createProxy proxy stored => (Proxy.createProxy proxy stored files).map some id
  | .attachCertificate domain attachment exchange =>
      Proxy.attachCertificate context.webmailUpstream context.proxies domain attachment exchange files
  | .detachCertificate domain exchange => Proxy.detachCertificate context.proxies domain exchange files
  | .syncAllProxies sync => Proxy.syncAllProxies context.sitesDir context.webmailUpstream context.proxies sync files
  | .sqlConsoleRoute domain call attempt => (routeCall domain call attempt files).map some id

end ContainerCP.Proxy
