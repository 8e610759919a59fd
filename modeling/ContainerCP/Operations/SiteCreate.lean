import ContainerCP.Operations.SiteRemove

/-! `SiteCreateOperation`. -/
namespace ContainerCP.Operations

/-- `StringUtils::sanitize`. -/
def sanitize (input : Bytes) : Bytes := input.map fun c => if isAlnum c then c else ascii '_'

/-- The web server and the template profile that a profile stands for. -/
def webServerOf (profile : Bytes) : Bytes × Bytes :=
  let chosen :=
    match cutAt (ascii ':') profile with
    | some (webServer, template) => (webServer, template)
    | none => if bytes "nginx" <:+: profile then (bytes "nginx", profile) else (bytes "apache", profile)
  if chosen.1 = bytes "apache" ∨ chosen.1 = bytes "nginx" then chosen else (bytes "apache", chosen.2)

/-- How the provider gets on: without Compose it does nothing, it can end before the compose
file is written, or with it. Then `up` may put containers of the project in the place of
those there were, and adds objects. -/
inductive ProviderRun where
  | unavailable (message : Bytes)
  | unfinished (message : Bytes)
  | composed (recreated : Container → Bool) (started : Docker) (result : OperationResult)

/-- `HostingProvider::create_site`, as it changes the directory of the site and Docker. -/
def createSite (run : ProviderRun) (domain : Bytes) (siteId : Nat) (world : World) : OperationResult × World :=
  match run with
  | .unavailable message => (.error message, world)
  | .unfinished message =>
      (.error message,
        { world with
          siteDirs := Function.update world.siteDirs domain (some ⟨(world.siteDirs domain).bind SiteDir.composeFile⟩) })
  | .composed recreated started result =>
      let kept := world.docker.drop { Selection.none with containers := (composeDown domain siteId false).containers }
        { Selection.none with containers := recreated }
      (result,
        { world with
          siteDirs := Function.update world.siteDirs domain (some ⟨some siteId⟩)
          docker :=
            { containers := kept.containers ++ started.containers
              networks := kept.networks ++ started.networks
              volumes := kept.volumes ++ started.volumes } })

/-! ## The rollback -/

structure CreateState where
  siteRecordCreated : Bool
  domainRecordCreated : Bool
  databaseRecordCreated : Bool
  siteId : Nat
  siteDir : Bool
  domain : Bytes
  deriving DecidableEq

/-- What the rollback has Docker remove, where it finds the compose file of some site. -/
def rollbackDocker (siteId : Nat) (domain : Bytes) (composeFile : Option Nat) (obeyed : Selection) (docker : Docker) :
    Docker :=
  let docker :=
    match composeFile with
    | none => docker
    | some composed => docker.drop (composeDown domain composed true) obeyed
  if 0 < siteId then
    ((((docker.drop (containersOfSite siteId) obeyed).drop (networksOfProject siteId) obeyed).drop (networksNamed siteId)
      obeyed).drop (volumesOfProject siteId) obeyed)
  else docker

/-- All that the rollback has Docker remove. -/
def rollbackSelection (siteId : Nat) (domain : Bytes) (composeFile : Option Nat) : Selection :=
  let stack :=
    match composeFile with
    | none => Selection.none
    | some composed => composeDown domain composed true
  if 0 < siteId then
    (((stack.union (containersOfSite siteId)).union (networksOfProject siteId)).union (networksNamed siteId)).union
      (volumesOfProject siteId)
  else stack

theorem Docker.drop_none (docker : Docker) (obeyed : Selection) : docker.drop Selection.none obeyed = docker := by
  simp [Docker.drop, Selection.none]

theorem rollbackDocker_eq (siteId : Nat) (domain : Bytes) (composeFile : Option Nat) (obeyed : Selection) (docker : Docker) :
    rollbackDocker siteId domain composeFile obeyed docker =
      docker.drop (rollbackSelection siteId domain composeFile) obeyed := by
  unfold rollbackDocker rollbackSelection
  cases composeFile with
  | none =>
      dsimp only
      split
      · rw [← Docker.drop_drop, ← Docker.drop_drop, ← Docker.drop_drop, ← Docker.drop_drop, Docker.drop_none]
      · rw [Docker.drop_none]
  | some composed =>
      dsimp only
      split
      · rw [← Docker.drop_drop, ← Docker.drop_drop, ← Docker.drop_drop, ← Docker.drop_drop]
      · rfl

section Selection

variable {siteId : Nat} (hSite : 0 < siteId) (domain : Bytes) (composeFile : Option Nat)

include hSite

/-- The containers of the project, where there is a compose file, and those with the label
of the site. -/
theorem rollback_containers (container : Container) : (rollbackSelection siteId domain composeFile).containers container = true ↔
    (composeFile ≠ none ∧ container.projectLabel = some (siteComposeProjectName domain)) ∨
      container.siteLabel = some (decimal siteId) := by
  unfold rollbackSelection
  cases composeFile with
  | none => simp [hSite, Selection.union, Selection.none, containersOfSite, networksOfProject, networksNamed, volumesOfProject]
  | some composed =>
      simp [hSite, Selection.union, Selection.none, composeDown, containersOfSite, networksOfProject, networksNamed,
        volumesOfProject]

/-- The network of the compose file, and those with the text of the id in their project or
anywhere in their name. -/
theorem rollback_networks (network : Network) : (rollbackSelection siteId domain composeFile).networks network = true ↔
    (∃ composed, composeFile = some composed ∧ network.name = siteNetworkName domain composed) ∨
      network.projectLabel = some (siteNetworkKey siteId) ∨ siteNetworkKey siteId <:+: network.name := by
  unfold rollbackSelection
  cases composeFile with
  | none => simp [hSite, Selection.union, Selection.none, containersOfSite, networksOfProject, networksNamed, volumesOfProject]
  | some composed =>
      simp [hSite, Selection.union, Selection.none, composeDown, containersOfSite, networksOfProject, networksNamed,
        volumesOfProject, or_assoc]

/-- The volume of the compose file, and those with the text of the id as their project. -/
theorem rollback_volumes (volume : Volume) : (rollbackSelection siteId domain composeFile).volumes volume = true ↔
    (composeFile ≠ none ∧ volume.name = siteDatabaseVolumeName domain) ∨
      volume.projectLabel = some (siteNetworkKey siteId) := by
  unfold rollbackSelection
  cases composeFile with
  | none => simp [hSite, Selection.union, Selection.none, containersOfSite, networksOfProject, networksNamed, volumesOfProject]
  | some composed =>
      simp [hSite, Selection.union, Selection.none, composeDown, containersOfSite, networksOfProject, networksNamed,
        volumesOfProject]

end Selection

/-- `do_rollback`. -/
def rollback (state : CreateState) (obeyed : Selection) (world : World) : World where
  proxyConfigs := Function.update world.proxyConfigs (Proxy.configName state.domain) none
  docker := rollbackDocker state.siteId state.domain
    (if state.siteDir then (world.siteDirs state.domain).bind SiteDir.composeFile else none) obeyed world.docker
  siteDirs := if state.siteDir then Function.update world.siteDirs state.domain none else world.siteDirs
  managers :=
    { world.managers with
      proxies := removeFound world.managers.proxies fun proxy => proxy.domain = state.domain
      databases :=
        if state.databaseRecordCreated && 0 < state.siteId then
          removeFound world.managers.databases fun database => database.siteId = state.siteId
        else world.managers.databases
      domains :=
        if state.domainRecordCreated && 0 < state.siteId then
          removeFound world.managers.domains fun domain => domain.siteId = state.siteId
        else world.managers.domains
      sites :=
        if state.siteRecordCreated && 0 < state.siteId then world.managers.sites.remove state.siteId
        else world.managers.sites }

/-! ## The operation -/

/-- How the steps outside the managers go: what the validation says, the provider and the
profile that it sets, what the proxy provider says and leaves in the config, what nginx
says to the reload, and which removals Docker carries out. -/
structure CreateSteps where
  refused : Option Bytes
  password : Bytes
  provider : ProviderRun
  webTemplateProfile : Bytes
  proxyCreated : OperationResult
  proxyConfig : Bytes
  reloaded : OperationResult
  obeyed : Selection

def rolledBack (message : Bytes) : Bytes := message ++ bytes " Created resources have been rolled back."

/-- The upstream of the proxy of a site. -/
def siteUpstream (siteId : Nat) : Bytes := bytes "site-" ++ decimal siteId ++ bytes "-web:80"

/-- The record of the site. -/
def withSite (owner domain profile : Bytes) (nodeId : Nat) (world : World) : World :=
  { world with
    managers :=
      { world.managers with
        sites := world.managers.sites.create
          (fun id => ⟨id, domain, owner, nodeId, (webServerOf profile).1, (webServerOf profile).2⟩) fun _ => rfl } }

/-- The records of the domain and of the database. -/
def withRecords (siteId : Nat) (domain password : Bytes) (world : World) : World :=
  { world with
    managers :=
      { world.managers with
        domains := world.managers.domains.create (fun id => ⟨id, domain, 0, siteId⟩) fun _ => rfl
        databases := world.managers.databases.create
          (fun id => ⟨id, sanitize domain ++ bytes "_db", sanitize domain ++ bytes "_user", password, 0, siteId⟩)
          fun _ => rfl } }

/-- The profile that the provider chose, in the record of the site. -/
def withProfile (siteId : Nat) (profile : Bytes) (world : World) : World :=
  { world with
    managers :=
      { world.managers with
        sites := world.managers.sites.modify siteId (fun site => { site with webTemplateProfile := profile }) fun _ => rfl } }

/-- `SiteCreateOperation::execute`. -/
def siteCreate (steps : CreateSteps) (owner domain profile : Bytes) (nodeId : Nat) (dryRun : Bool) (world : World) :
    OperationResult × World :=
  match steps.refused with
  | some message => (.error message, world)
  | none =>
      if (world.managers.sites.find fun site => site.domain = domain).isSome then (.error (bytes "Site already exists."), world)
      else if dryRun then (.ok [], world)
      else
        let siteId := world.managers.sites.nextId
        let created := withSite owner domain profile nodeId world
        let plan := inspectSiteDatabaseVolume created.docker domain siteId
        if plan.present then
          (.error (bytes "Database volume collision detected for " ++ plan.volumeName ++
              bytes "; refusing to reuse existing MariaDB data."),
            rollback ⟨true, false, false, siteId, false, domain⟩ steps.obeyed created)
        else
          let state : CreateState := ⟨true, true, true, siteId, true, domain⟩
          let (result, deployed) := createSite steps.provider domain siteId (withRecords siteId domain steps.password created)
          match result with
          | .error message => (.error (rolledBack message), rollback state steps.obeyed deployed)
          | .ok _ =>
              let profiled := withProfile siteId steps.webTemplateProfile deployed
              match steps.proxyCreated with
              | .error message => (.error (rolledBack message), rollback state steps.obeyed profiled)
              | .ok _ =>
                  let proxied :=
                    { profiled with
                      proxyConfigs := Function.update profiled.proxyConfigs (Proxy.configName domain) (some steps.proxyConfig) }
                  match steps.reloaded with
                  | .error message => (.error (rolledBack message), rollback state steps.obeyed proxied)
                  | .ok _ =>
                      (.ok [],
                        { proxied with
                          managers :=
                            { proxied.managers with
                              proxies := proxied.managers.proxies.create
                                (fun id => ⟨id, domain, siteId, Proxy.configName domain, siteUpstream siteId⟩) fun _ => rfl } })

end ContainerCP.Operations
