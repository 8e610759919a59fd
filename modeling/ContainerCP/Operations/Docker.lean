import ContainerCP.Text.Decimal
import Mathlib.Data.List.Infix

/-! The objects of Docker as far as the operations on sites select them, and how they do. -/
namespace ContainerCP.Operations

abbrev OperationResult := Except Bytes Bytes

structure Mount where
  type : Bytes
  name : Bytes
  destination : Bytes
  rw : Bool
  deriving DecidableEq

structure Container where
  name : Bytes
  siteLabel : Option Bytes
  projectLabel : Option Bytes
  serviceLabel : Option Bytes
  mounts : List Mount
  deriving DecidableEq

structure Network where
  name : Bytes
  projectLabel : Option Bytes
  deriving DecidableEq

structure Volume where
  name : Bytes
  siteLabel : Option Bytes
  domainLabel : Option Bytes
  projectLabel : Option Bytes
  volumeLabel : Option Bytes
  deriving DecidableEq

structure Docker where
  containers : List Container
  networks : List Network
  volumes : List Volume

/-- Objects that a command is about. -/
structure Selection where
  containers : Container → Bool
  networks : Network → Bool
  volumes : Volume → Bool

namespace Selection

def none : Selection := ⟨fun _ => false, fun _ => false, fun _ => false⟩

def all : Selection := ⟨fun _ => true, fun _ => true, fun _ => true⟩

def union (first second : Selection) : Selection :=
  ⟨fun container => first.containers container || second.containers container,
    fun network => first.networks network || second.networks network,
    fun volume => first.volumes volume || second.volumes volume⟩

end Selection

/-- The selected objects go, where Docker does what it is told. -/
def Docker.drop (docker : Docker) (selection obeyed : Selection) : Docker where
  containers := docker.containers.filter fun container => !(selection.containers container && obeyed.containers container)
  networks := docker.networks.filter fun network => !(selection.networks network && obeyed.networks network)
  volumes := docker.volumes.filter fun volume => !(selection.volumes volume && obeyed.volumes volume)

/-- Two removals are one of both selections. -/
theorem Docker.drop_drop (docker : Docker) (first second obeyed : Selection) :
    (docker.drop first obeyed).drop second obeyed = docker.drop (first.union second) obeyed := by
  have hBool : ∀ first second obeyed : Bool,
      (!(second && obeyed) && !(first && obeyed)) = !((first || second) && obeyed) := by
    decide
  rw [Docker.drop, Docker.drop, Docker.drop]
  simp only [List.filter_filter, Selection.union, hBool]

theorem Docker.mem_containers_drop {docker : Docker} {selection obeyed : Selection} {container : Container} :
    container ∈ (docker.drop selection obeyed).containers ↔ container ∈ docker.containers ∧
      ¬(selection.containers container = true ∧ obeyed.containers container = true) := by
  rw [Docker.drop, List.mem_filter, Bool.not_eq_true', ← Bool.not_eq_true, Bool.and_eq_true]

theorem Docker.mem_networks_drop {docker : Docker} {selection obeyed : Selection} {network : Network} :
    network ∈ (docker.drop selection obeyed).networks ↔ network ∈ docker.networks ∧
      ¬(selection.networks network = true ∧ obeyed.networks network = true) := by
  rw [Docker.drop, List.mem_filter, Bool.not_eq_true', ← Bool.not_eq_true, Bool.and_eq_true]

theorem Docker.mem_volumes_drop {docker : Docker} {selection obeyed : Selection} {volume : Volume} :
    volume ∈ (docker.drop selection obeyed).volumes ↔ volume ∈ docker.volumes ∧
      ¬(selection.volumes volume = true ∧ obeyed.volumes volume = true) := by
  rw [Docker.drop, List.mem_filter, Bool.not_eq_true', ← Bool.not_eq_true, Bool.and_eq_true]

/-! ## Names -/

/-- `std::tolower`. -/
def toLower (c : UInt8) : UInt8 := if 65 ≤ c && c ≤ 90 then c + 32 else c

/-- `site_compose_project_name`. -/
def siteComposeProjectName (domain : Bytes) : Bytes :=
  (domain.filter fun c => isAlnum c || c = ascii '-' || c = ascii '_').map toLower

/-- `site_database_volume_name`. -/
def siteDatabaseVolumeName (domain : Bytes) : Bytes := siteComposeProjectName domain ++ bytes "_db-data"

/-- The key of the private network in the compose file of a site. -/
def siteNetworkKey (siteId : Nat) : Bytes := bytes "containercp-site-" ++ decimal siteId

/-- The name that Compose gives to the private network of a site. -/
def siteNetworkName (domain : Bytes) (siteId : Nat) : Bytes :=
  siteComposeProjectName domain ++ bytes "_" ++ siteNetworkKey siteId

/-- The text of the id stands in the name of the network of the site. -/
theorem siteNetworkKey_occurs (domain : Bytes) (siteId : Nat) : siteNetworkKey siteId <:+: siteNetworkName domain siteId :=
  (List.suffix_append _ _).isInfix

/-! ## Selections -/

/-- `docker compose down` with the compose file of a site: its containers and its private
network, with `--volumes` its database volume too. -/
def composeDown (domain : Bytes) (siteId : Nat) (volumes : Bool) : Selection where
  containers := fun container => container.projectLabel = some (siteComposeProjectName domain)
  networks := fun network => network.name = siteNetworkName domain siteId
  volumes := fun volume => volumes && volume.name = siteDatabaseVolumeName domain

/-- `--filter label=containercp.site.id=...`. -/
def containersOfSite (siteId : Nat) : Selection :=
  { Selection.none with containers := fun container => container.siteLabel = some (decimal siteId) }

/-- `docker network ls --filter name=...`: the text may stand anywhere in the name. -/
def networksNamed (siteId : Nat) : Selection :=
  { Selection.none with networks := fun network => siteNetworkKey siteId <:+: network.name }

/-- `docker network ls --filter label=com.docker.compose.project=...`. -/
def networksOfProject (siteId : Nat) : Selection :=
  { Selection.none with networks := fun network => network.projectLabel = some (siteNetworkKey siteId) }

/-- `docker volume ls --filter label=com.docker.compose.project=...`. -/
def volumesOfProject (siteId : Nat) : Selection :=
  { Selection.none with volumes := fun volume => volume.projectLabel = some (siteNetworkKey siteId) }

def volumeNamed (name : Bytes) : Selection := { Selection.none with volumes := fun volume => volume.name = name }

/-! ## `SiteDatabaseVolumeGuard` -/

structure SiteDatabaseVolumePlan where
  volumeName : Bytes
  present : Bool
  removable : Bool
  legacyMountProven : Bool
  reason : Bytes
  deriving DecidableEq

/-- How a label is read back from the output of an inspection. -/
def labelText (label : Option Bytes) : Bytes := trim (label.getD [])

/-- `is_missing_label`. -/
def isMissingLabel (value : Bytes) : Bool := value = [] || value = bytes "<no value>"

/-- `mounted_by_target_container`. -/
def mountedByTargetContainer (docker : Docker) (volumeName project : Bytes) (siteId : Nat) : Bool :=
  match docker.containers.find? fun container => container.name = bytes "site-" ++ decimal siteId ++ bytes "-db" with
  | none => false
  | some container =>
      labelText container.siteLabel = decimal siteId && labelText container.projectLabel = project &&
        labelText container.serviceLabel = bytes "mariadb" &&
        container.mounts.any fun mount => mount.type = bytes "volume" && mount.name = volumeName &&
          mount.destination = bytes "/var/lib/mysql" && mount.rw

/-- `inspect_site_database_volume`. -/
def inspectSiteDatabaseVolume (docker : Docker) (domain : Bytes) (siteId : Nat) : SiteDatabaseVolumePlan :=
  let volumeName := siteDatabaseVolumeName domain
  let project := siteComposeProjectName domain
  match docker.volumes.find? fun volume => volume.name = volumeName with
  | none => ⟨volumeName, false, true, false, bytes "database_volume_absent"⟩
  | some volume =>
      let composeMatches := labelText volume.projectLabel = project && labelText volume.volumeLabel = bytes "db-data"
      if composeMatches && labelText volume.siteLabel = decimal siteId && labelText volume.domainLabel = domain then
        ⟨volumeName, true, true, false, bytes "database_volume_owned_by_labels"⟩
      else if composeMatches && isMissingLabel (labelText volume.siteLabel) && isMissingLabel (labelText volume.domainLabel) &&
          mountedByTargetContainer docker volumeName project siteId then
        ⟨volumeName, true, true, true, bytes "database_volume_owned_by_legacy_mount"⟩
      else
        ⟨volumeName, true, false, false,
          if composeMatches then bytes "database_volume_ownership_mismatch" else bytes "database_volume_not_owned_by_site"⟩

end ContainerCP.Operations
