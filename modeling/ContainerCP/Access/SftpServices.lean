import ContainerCP.Access.SftpHost
import ContainerCP.Access.SftpKeys
import ContainerCP.Api.Request

/-! What the SFTP endpoints work on: the users, keys and grants in memory, the lists
that were saved of them, and the provider that manages the accounts. -/
namespace ContainerCP.SftpApi

open LocalSftp (Permission OperationResult)
open Access (AccessKey AccessKeyManager)

/-! ## Users -/

structure AccessUser where
  id : UInt64
  username : Bytes
  authType : Bytes := bytes "password"
  passwordHash : Bytes := []
  enabled : Bool := true
  deriving DecidableEq

structure AccessUserManager where
  users : List AccessUser := []
  nextId : UInt64 := 1
  deriving DecidableEq

namespace AccessUserManager

def create (manager : AccessUserManager) (username : Bytes) : UInt64 × AccessUserManager :=
  (manager.nextId, ⟨manager.users ++ [{ id := manager.nextId, username }], manager.nextId + 1⟩)

def remove (manager : AccessUserManager) (id : UInt64) : AccessUserManager :=
  { manager with users := manager.users.eraseP fun user => user.id = id }

def find (manager : AccessUserManager) (id : UInt64) : Option AccessUser := manager.users.find? fun user => user.id = id

def findName (manager : AccessUserManager) (username : Bytes) : Option AccessUser :=
  manager.users.find? fun user => user.username = username

/-- An assignment through the pointer that `find` gives. -/
def setEnabled (manager : AccessUserManager) (id : UInt64) (enabled : Bool) : AccessUserManager :=
  { manager with
    users := manager.users.replaceF fun user => if user.id = id then some { user with enabled } else none }

end AccessUserManager

/-! ## Grants -/

structure AccessGrant where
  id : UInt64
  accessUserId : UInt64
  siteId : UInt64
  permission : Permission
  deriving DecidableEq

structure AccessGrantManager where
  grants : List AccessGrant := []
  nextId : UInt64 := 1
  deriving DecidableEq

namespace AccessGrantManager

def create (manager : AccessGrantManager) (accessUserId siteId : UInt64) (permission : Permission) :
    UInt64 × AccessGrantManager :=
  (manager.nextId, ⟨manager.grants ++ [⟨manager.nextId, accessUserId, siteId, permission⟩], manager.nextId + 1⟩)

def remove (manager : AccessGrantManager) (id : UInt64) : AccessGrantManager :=
  { manager with grants := manager.grants.eraseP fun grant => grant.id = id }

def findByUser (manager : AccessGrantManager) (accessUserId : UInt64) : List AccessGrant :=
  manager.grants.filter fun grant => grant.accessUserId = accessUserId

end AccessGrantManager

/-! ## Keys -/

def findKey (manager : AccessKeyManager) (id : UInt64) : Option AccessKey := manager.keys.find? fun key => key.id = id

def removeKey (manager : AccessKeyManager) (id : UInt64) : AccessKeyManager :=
  { manager with keys := manager.keys.eraseP fun key => key.id = id }

def setKeyEnabled (manager : AccessKeyManager) (id : UInt64) (enabled : Bool) : AccessKeyManager :=
  { manager with
    keys := manager.keys.replaceF fun key => if key.id = id then some { key with enabled } else none }

/-! ## The services -/

structure Memory where
  users : AccessUserManager := {}
  keys : AccessKeyManager := {}
  grants : AccessGrantManager := {}
  deriving DecidableEq

/-- The rows of the three tables. -/
structure Lists where
  users : List AccessUser := []
  keys : List AccessKey := []
  grants : List AccessGrant := []
  deriving DecidableEq

def Memory.lists (memory : Memory) : Lists := ⟨memory.users.users, memory.keys.keys, memory.grants.grants⟩

structure Site where
  id : UInt64
  domain : Bytes
  deriving DecidableEq

/-- What an answer shows of a managed account. -/
structure AccountView where
  user : UInt64
  username : Bytes
  state : Bytes
  home : Bytes
  lastError : Bytes
  deriving DecidableEq

/-- The provider, as the endpoints call it. It reads the lists in memory and changes
only what it manages itself. -/
structure Provider (Host : Type) where
  createUser : Memory → AccessUser → Host → OperationResult × Host
  disableUser : Memory → AccessUser → Host → OperationResult × Host
  removeUser : Memory → UInt64 → Host → OperationResult × Host
  writeAuthorizedKeys : Memory → UInt64 → Host → OperationResult × Host
  applyGrant : Memory → UInt64 → UInt64 → Bytes → Host → OperationResult × Host
  revokeGrant : Memory → UInt64 → UInt64 → Bytes → Host → OperationResult × Host
  hasMapping : UInt64 → Host → Bool
  accounts : Host → List AccountView

structure Services (Host : Type) where
  memory : Memory
  saved : Lists
  host : Host

/-- The saves of a request: of all tables, of which some come before the three and some
behind them, of the keys alone, and of the keys once more after a failure. -/
inductive SaveCall where
  | before
  | users
  | grants
  | keys
  | keysBack
  | behind
  deriving DecidableEq

/-- What one request finds: the sites, whether the provider is there, how it answers, how
a new key pair comes out, and which saves throw. -/
structure Env (Host : Type) where
  sha256 : Bytes → Bytes
  sites : List Site
  available : Bool
  provider : Provider Host
  generate : Bytes → Bytes → Except Bytes (Bytes × Bytes)
  throws : SaveCall → Bool

/-- An exception that no handler catches. It ends the process. -/
inductive Thrown where
  | thrown
  deriving DecidableEq

abbrev Api (Host : Type) := EStateM Thrown (Services Host)

section Saving

variable {Host : Type} (env : Env Host)

/-- One save: it throws, or the rows are those in memory. -/
def saveTable (call : SaveCall) (copy : Lists → Lists → Lists) : Api Host Unit := fun services =>
  if env.throws call then .error .thrown services
  else .ok () { services with saved := copy services.memory.lists services.saved }

def saveKeys (call : SaveCall) : Api Host Unit := saveTable env call fun lists saved => { saved with keys := lists.keys }

/-- `ServiceRegistry::save`. -/
def save : Api Host Unit := do
  saveTable env .before fun _ saved => saved
  saveTable env .users fun lists saved => { saved with users := lists.users }
  saveTable env .grants fun lists saved => { saved with grants := lists.grants }
  saveTable env .keys fun lists saved => { saved with keys := lists.keys }
  saveTable env .behind fun _ saved => saved

/-- Change the lists in memory. -/
def alter (change : Memory → Memory) : Api Host Unit := fun services =>
  .ok () { services with memory := change services.memory }

/-- Call the provider. -/
def ask (call : Memory → Host → OperationResult × Host) : Api Host OperationResult := fun services =>
  .ok (call services.memory services.host).1 { services with host := (call services.memory services.host).2 }

end Saving

end ContainerCP.SftpApi
