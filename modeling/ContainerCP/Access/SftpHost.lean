import ContainerCP.Posix.Administration
import ContainerCP.Posix.Process
import ContainerCP.Text.Decimal

/-! What `LocalSftpProvider` works on: the system, its table of managed accounts, the lifecycle
records of the grants and the managed mounts, and the calls that change them. -/
namespace ContainerCP.LocalSftp

open Posix

/-- A message, of a success or of a failure. -/
abbrev OperationResult := Except Bytes Bytes

/-! ## Accounts -/

inductive Permission where
  | readOnly
  | readWrite
  | deploy
  deriving DecidableEq

def permissionText : Permission → Bytes
  | .readOnly => bytes "read_only"
  | .readWrite => bytes "read_write"
  | .deploy => bytes "deploy"

inductive EntityType where
  | accessUser
  | siteGroupRo
  | siteGroupRw
  deriving DecidableEq

inductive MappingState where
  | active
  | provisioning
  | removing
  | error
  deriving DecidableEq

structure SystemAccountMapping where
  entityType : EntityType
  entityId : Nat
  uid : Int := 0
  gid : Int := 0
  username : Name
  groupname : Name
  state : MappingState
  home : Bytes := []
  lastError : Bytes := []
  deriving DecidableEq

def SystemAccountMapping.key (mapping : SystemAccountMapping) : EntityType × Nat := (mapping.entityType, mapping.entityId)

/-- What the unique indexes of the table keep apart. -/
def SystemAccountMapping.Apart (mapping other : SystemAccountMapping) : Prop :=
  mapping.username ≠ other.username ∧ mapping.uid ≠ other.uid ∧ mapping.groupname ≠ other.groupname

instance : DecidableRel SystemAccountMapping.Apart := fun mapping other =>
  inferInstanceAs (Decidable (mapping.username ≠ other.username ∧ mapping.uid ≠ other.uid ∧
    mapping.groupname ≠ other.groupname))

/-- The table `system_accounts`. -/
structure SystemAccounts where
  table : Rows SystemAccountMapping.key
  apart : table.rows.Pairwise SystemAccountMapping.Apart

namespace SystemAccounts

instance : DecidableEq SystemAccounts := fun accounts accounts' =>
  decidable_of_iff (accounts.table = accounts'.table) <| by
    constructor
    · intro h
      obtain ⟨table, apart⟩ := accounts
      obtain ⟨table', apart'⟩ := accounts'
      subst h
      rfl
    · exact congrArg table

/-- `find_mapping`. -/
def find (accounts : SystemAccounts) (entityType : EntityType) (entityId : Nat) : Option SystemAccountMapping :=
  accounts.table.find (entityType, entityId)

/-- `resolve_username`. An empty name is none. -/
def resolveUsername (accounts : SystemAccounts) (user : Nat) : Option Name :=
  (((accounts.find .accessUser user).filter fun mapping =>
    mapping.state = .active || mapping.state = .removing).map SystemAccountMapping.username).filter (· ≠ [])

end SystemAccounts

/-! ## Grants -/

inductive GrantState where
  | pending
  | applying
  | active
  | revoking
  | error
  deriving DecidableEq

structure GrantLifecycleState where
  accessUserId : Nat
  siteId : Nat
  permission : Permission
  state : GrantState
  lastError : Bytes := []
  deriving DecidableEq

def GrantLifecycleState.key (record : GrantLifecycleState) : Nat × Nat := (record.accessUserId, record.siteId)

/-! ## Managed mounts -/

inductive MountLifecycle where
  | pending
  | applying
  | active
  | removing
  | error
  deriving DecidableEq

structure ManagedMountState where
  accessUserId : Nat
  siteId : Nat
  sourcePath : Bytes
  targetPath : Bytes
  state : MountLifecycle
  lastError : Bytes := []
  deriving DecidableEq

def ManagedMountState.key (mount : ManagedMountState) : Nat × Nat := (mount.accessUserId, mount.siteId)

/-! ## The host -/

/-- Everything that the provider reads and changes. -/
structure Host where
  system : System
  accounts : SystemAccounts
  records : Rows GrantLifecycleState.key
  managed : Rows ManagedMountState.key
  deriving DecidableEq

/-! ## Sites -/

def slashes (text : Bytes) : Bytes := text.rdropWhile (· = slash)

/-- The text behind the last slash, after the slashes at the end are dropped. -/
def lastComponent (root : Bytes) : Bytes := ((slashes root).reverse.takeWhile (· ≠ slash)).reverse

/-- What the site resolver gives. The root of a site is the directory of its domain under
the directory of all sites, and no host name has a slash. -/
structure SiteInfo where
  domain : Bytes
  root : Bytes
  named : lastComponent root = domain
  deriving DecidableEq

def SiteInfo.publicDir (site : SiteInfo) : Bytes := site.root ++ bytes "/public/"

/-! ## Calls -/

/-- Which part of an operation makes a call. -/
inductive Phase where
  | apply
  | applyUndo
  | revoke
  | startup
  deriving DecidableEq

inductive Call where
  | command (command : Command)
  | saveManagedMount (mount : ManagedMountState)
  | deleteManagedMount (user site : Nat)
  deriving DecidableEq

/-- The configuration of the provider, and how each call goes. A verdict `fails` also
stands for a call that the command runner refuses for its names or paths. -/
structure Env where
  kernel : Kernel
  managedHomeRoot : Bytes
  siteResolver : Nat → Option SiteInfo
  verdict : Phase → Call → Verdict
  stderr : Call → Bytes

def Env.target (env : Env) (username domain : Bytes) : Bytes :=
  env.managedHomeRoot ++ bytes "/" ++ username ++ bytes "/sites/" ++ domain

/-- What a call does if it works. -/
def Host.perform (env : Env) (host : Host) : Call → Option Host
  | .command command => (host.system.execute env.kernel command).map fun system => { host with system }
  | .saveManagedMount mount => some { host with managed := host.managed.put mount }
  | .deleteManagedMount user site => some { host with managed := host.managed.erase (user, site) }

/-- The process was stopped. -/
inductive Stop where
  | stopped
  deriving DecidableEq

abbrev Sftp := EStateM Stop Host

/-- Make a call, and see whether it worked. -/
def run (env : Env) (phase : Phase) (call : Call) : Sftp Bool := fun host =>
  match env.verdict phase call with
  | .stops => .error .stopped host
  | .fails => .ok false host
  | .works =>
      match host.perform env call with
      | none => .ok false host
      | some host' => .ok true host'

def command (env : Env) (phase : Phase) (command : Command) : Sftp Bool := run env phase (.command command)

end ContainerCP.LocalSftp
