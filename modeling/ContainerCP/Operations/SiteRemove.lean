import ContainerCP.Data.Registry
import ContainerCP.Text.Decimal
import ContainerCP.Operations.Docker
import ContainerCP.Proxy.ConfigDirectory

/-! The records of a site in the managers: the site, its domains, databases and proxies,
and the certificates and mail domains of its domains. -/
namespace ContainerCP.Operations

structure Site where
  id : Nat
  domain : Bytes
  owner : Bytes
  nodeId : Nat
  webServer : Bytes
  webTemplateProfile : Bytes
  deriving DecidableEq

structure Domain where
  id : Nat
  fqdn : Bytes
  ownerId : Nat
  siteId : Nat
  deriving DecidableEq

structure Database where
  id : Nat
  dbName : Bytes
  dbUser : Bytes
  dbPassword : Bytes
  ownerId : Nat
  siteId : Nat
  deriving DecidableEq

structure ReverseProxy where
  id : Nat
  domain : Bytes
  siteId : Nat
  configPath : Bytes
  upstream : Bytes
  deriving DecidableEq

structure SslCertificate where
  id : Nat
  domainId : Nat
  domain : Bytes
  deriving DecidableEq

structure MailDomain where
  id : Nat
  domainId : Nat
  siteId : Nat
  domainName : Bytes
  deriving DecidableEq

structure Managers where
  sites : Registry Site Site.id
  domains : Registry Domain Domain.id
  databases : Registry Database Database.id
  proxies : Registry ReverseProxy ReverseProxy.id
  ssl : Registry SslCertificate SslCertificate.id
  mail : Registry MailDomain MailDomain.id

/-- Removes the record that a test finds, if it finds one. -/
def removeFound {Record : Type} {id : Record → Nat} (registry : Registry Record id) (test : Record → Bool) :
    Registry Record id :=
  match registry.find test with
  | none => registry
  | some record => registry.remove (id record)

theorem records_removeFound {Record : Type} {id : Record → Nat} (registry : Registry Record id) (test : Record → Bool) :
    (removeFound registry test).records = registry.records.eraseP test := by
  rw [removeFound]
  cases hFind : registry.find test with
  | none =>
      have hNone := List.find?_eq_none.mp hFind
      exact (List.eraseP_of_forall_not hNone).symm
  | some record => exact Registry.records_remove_find hFind

end ContainerCP.Operations

/-! `SiteRemoveOperation`. -/
namespace ContainerCP.Operations

/-- What is in the directory of a site, as far as the operations look: for which site its
compose file was made, if it has one. -/
structure SiteDir where
  composeFile : Option Nat
  deriving DecidableEq

/-- All that the operations on sites work with; the directories by domain, the configs of
the proxy by name. -/
structure World where
  managers : Managers
  proxyConfigs : Proxy.Files
  siteDirs : Bytes → Option SiteDir
  docker : Docker

/-! ## Records -/

/-- The removal of one domain, with the certificate and the mail domain that are found for
its name. -/
def removeDomain (managers : Managers) (domainId : Nat) : Managers :=
  match managers.domains.find fun domain => domain.id = domainId with
  | none => managers
  | some domain =>
      { managers with
        ssl := removeFound managers.ssl fun certificate => certificate.domain = domain.fqdn
        mail := removeFound managers.mail fun mailDomain => mailDomain.domainName = domain.fqdn
        domains := managers.domains.remove domainId }

/-- The loop over the databases, whose list it shortens: its end was taken before, so behind
a removal it reads behind the end of the list, where nothing says what it finds. -/
def removeDatabases (stale : Nat → Database) (siteId : Nat) (databases : Registry Database Database.id) :
    Registry Database Database.id :=
  (List.range databases.records.length).foldl (fun databases i =>
    let database := (databases.records[i]?).getD (stale i)
    if database.siteId = siteId then databases.remove database.id else databases) databases

/-- The removal of the records, the one of the site last. -/
def removeRecords (stale : Nat → Database) (site : Site) (domain : Bytes) (managers : Managers) : Managers :=
  let managers := { managers with proxies := removeFound managers.proxies fun proxy => proxy.domain = domain }
  let domainIds := (managers.domains.records.filter fun d => d.siteId = site.id).map Domain.id
  let managers := domainIds.foldl removeDomain managers
  let managers := { managers with databases := removeDatabases stale site.id managers.databases }
  { managers with sites := managers.sites.remove site.id }

/-! ## The operation -/

/-- How the steps outside the managers go: the `down` of the stack, the removal of the
volume, which removals Docker carries out, and what reads behind the end of a list find. -/
structure RemoveSteps where
  down : OperationResult
  volumeRemoved : Bool
  obeyed : Selection
  stale : Nat → Database

/-- `SiteRemoveOperation::execute`. -/
def siteRemove (steps : RemoveSteps) (domain : Bytes) (world : World) : OperationResult × World :=
  match world.managers.sites.find fun site => site.domain = domain with
  | none => (.error (bytes "Site not found: " ++ domain), world)
  | some site =>
      let plan := inspectSiteDatabaseVolume world.docker domain site.id
      if plan.present && !plan.removable then (.error (bytes "Database volume cleanup refused: " ++ plan.reason), world)
      else
        let stopped := { world with docker := world.docker.drop (composeDown domain site.id false) steps.obeyed }
        match steps.down with
        | .error message => (.error message, stopped)
        | .ok _ =>
            if plan.present && !steps.volumeRemoved then
              (.error (bytes "Database volume cleanup failed for " ++ plan.volumeName), stopped)
            else
              let docker :=
                if plan.present then
                  stopped.docker.drop (volumeNamed plan.volumeName) { Selection.none with volumes := fun _ => true }
                else stopped.docker
              (.ok [],
                { managers := removeRecords steps.stale site domain world.managers
                  proxyConfigs := Function.update world.proxyConfigs (Proxy.configName domain) none
                  siteDirs := Function.update world.siteDirs domain none
                  docker := docker.drop (networksNamed site.id) steps.obeyed })

end ContainerCP.Operations
