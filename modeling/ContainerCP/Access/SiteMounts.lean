import ContainerCP.Access.SftpHost

/-! `LocalSftpProvider`: the bind mounts of the public directories under the homes of the
users. -/
namespace ContainerCP.LocalSftp

open Posix

/-- `FsPermissionState`. -/
structure FsPermissionState where
  exists_ : Bool := false
  isSymlink : Bool := false
  groupGid : Int := -1
  mode : Nat := 0
  deriving DecidableEq

/-- `RealFilesystemPermissionInspector::inspect`. The mode is cut down to its permission
bits: the type of the file is not among them. -/
def Host.inspect (host : Host) (path : Bytes) : FsPermissionState :=
  match host.system.lstat path with
  | none => {}
  | some (.directory directory) => ⟨true, false, directory.gid.toInt, directory.mode &&& 0o7777⟩
  | some (.link gid _) => ⟨true, true, gid.toInt, 0o777⟩
  | some (.file gid mode) => ⟨true, false, gid.toInt, mode &&& 0o7777⟩

/-- `mount_paths_equal`. -/
def mountPathsEqual (path other : Bytes) : Bool :=
  let trim (path : Bytes) : Bytes := if slashes path = [] then path.take 1 else slashes path
  trim path = trim other

def isBind (mount : Mount) : Bool := mount.root ≠ bytes "/"

/-- The options have `rw` and not `ro`. -/
def writableOptions (options : Bytes) : Bool :=
  (options.splitOn (ascii ',')).contains (bytes "rw") && !(options.splitOn (ascii ',')).contains (bytes "ro")

/-- Why a mount is not the bind of a source at a target, with the first reason found. -/
def mountMismatch (mount : Mount) (target source : Bytes) : Option Bytes :=
  ([(!isBind mount, bytes "no_bind"), (mount.target ≠ target, bytes "target"),
    (!mountPathsEqual mount.root source, bytes "source"), (mount.fstype = [], bytes "fstype"),
    (mount.device = [], bytes "device"), (!writableOptions mount.options, bytes "options")].find? Prod.fst).map Prod.snd

/-- `S_ISDIR`. -/
def isDirectoryMode (mode : Nat) : Bool := mode &&& 0o170000 = 0o040000

/-- `managed_path_safe`. -/
def managedPathSafe (env : Env) (host : Host) (path : Bytes) : Bool :=
  let canonical := env.kernel.realpath path
  let root := env.kernel.realpath env.managedHomeRoot
  env.managedHomeRoot ≠ [] && root ≠ [] && canonical ≠ [] && canonical ≠ root &&
    (if root.getLast? = some slash then root else root ++ [slash]).isPrefixOf canonical &&
    !(host.inspect canonical).isSymlink

/-- `safe_rmdir`. -/
def safeRmdir (env : Env) (phase : Phase) (target : Bytes) (createdByUs : Bool) (username domain : Bytes) :
    Sftp OperationResult := do
  let host ← get
  let state := host.inspect target
  if !managedPathSafe env host target then return .error (bytes "rmdir_safety:unsafe_path")
  else if target ≠ env.target username domain then return .error (bytes "rmdir_safety:path_mismatch")
  else if !state.exists_ then return .error (bytes "rmdir_safety:not_found")
  else if state.isSymlink then return .error (bytes "rmdir_safety:symlink")
  else if !isDirectoryMode state.mode then return .error (bytes "rmdir_safety:not_directory")
  else if (host.system.mountAt target).isSome then return .error (bytes "rmdir_safety:still_mounted")
  else if host.system.hasChildren target then return .error (bytes "rmdir_safety:not_empty")
  else if !createdByUs then return .error (bytes "rmdir_safety:unmanaged_target")
  else if !(← command env phase (.rmdir target)) then return .error (bytes "rmdir_safety:rmdir_failed")
  else if ((← get).inspect target).exists_ then return .error (bytes "rmdir_safety:still_present")
  else return .ok []

/-- A grant of the user for the site is stored. -/
def Host.hasGrant (host : Host) (user site : Nat) : Bool :=
  host.records.rows.any fun record => record.accessUserId = user && record.siteId = site

/-- The part of `bind_mount_site` after a mount that does not show as it should. -/
def undoMount (env : Env) (target : Bytes) (dirCreated : Bool) (username domain : Bytes) : Sftp OperationResult := do
  if !(← command env .applyUndo (.umount target)) then return .error (bytes "mount rollback umount failure")
  else if ((← get).system.mountAt target).isSome then return .error (bytes "mount rollback still mounted")
  else if dirCreated then
    match ← safeRmdir env .applyUndo target true username domain with
    | .error message => return .error message
    | .ok _ => return .error (bytes "mount verification failed")
  else return .error (bytes "mount verification failed")

/-- The part of `bind_mount_site` after a failed `mount`. -/
def undoMkdir (env : Env) (target : Bytes) (dirCreated : Bool) (username domain error : Bytes) :
    Sftp OperationResult := do
  if dirCreated then
    match ← safeRmdir env .applyUndo target true username domain with
    | .error message => return .error (bytes "mount failed: " ++ error ++ bytes "; cleanup: " ++ message)
    | .ok _ => return .error (bytes "mount failed: " ++ error)
  else return .error (bytes "mount failed: " ++ error)

/-- The part of `bind_mount_site` where nothing is mounted yet. -/
def makeMount (env : Env) (username : Name) (info : SiteInfo) : Sftp OperationResult := do
  let target := env.target username info.domain
  let dirCreated := !((← get).inspect target).exists_
  let mount : Command := .mountBind info.publicDir target
  if !(← command env .apply (.mkdirP target)) then return .error (bytes "mkdir failed")
  else if !(← command env .apply mount) then
    let error := env.stderr (.command mount)
    undoMkdir env target dirCreated username info.domain (if error = [] then bytes "command failed" else error)
  else
    match (← get).system.mountAt target with
    | none => undoMount env target dirCreated username info.domain
    | some mounted =>
        if (mountMismatch mounted target info.publicDir).isSome then
          undoMount env target dirCreated username info.domain
        else return .ok (bytes "mounted: " ++ info.domain)

/-- `bind_mount_site`. -/
def bindMountSite (env : Env) (user site : Nat) : Sftp OperationResult := do
  let host ← get
  if site = 0 then return .error (bytes "admin_panel_sftp_access_forbidden")
  else
    match host.accounts.resolveUsername user with
    | none => return .error (bytes "user not provisioned")
    | some username =>
        match env.siteResolver site with
        | none => return .error (bytes "site not found")
        | some info =>
            match host.system.mountAt (env.target username info.domain) with
            | none => makeMount env username info
            | some existing =>
                match mountMismatch existing (env.target username info.domain) info.publicDir with
                | some reason => return .error (bytes "foreign_or_mismatched_mount:" ++ reason)
                | none =>
                    if host.hasGrant user site then return .ok (bytes "mount already exists")
                    else return .error (bytes "foreign_or_mismatched_mount:no_grant")

/-- The part of `unmount_site` where the mount is the expected one. -/
def takeMount (env : Env) (phase : Phase) (username : Name) (info : SiteInfo) : Sftp OperationResult := do
  let domain := lastComponent info.root
  let target := env.target username domain
  if !(← command env phase (.umount target)) then return .error (bytes "umount failed")
  else
    match (← get).system.mountAt target with
    | some mounted =>
        if isBind mounted && mountPathsEqual mounted.root info.publicDir && mounted.target = target &&
            mounted.fstype ≠ [] && mounted.device ≠ [] then
          return .error (bytes "umount_verify:still_mounted")
        else return .error (bytes "umount_verify:foreign_mount")
    | none =>
        match ← safeRmdir env phase target true username domain with
        | .error message => return .error message
        | .ok _ => return .ok (bytes "unmounted: " ++ domain)

/-- `unmount_site`. -/
def unmountSite (env : Env) (phase : Phase) (user site : Nat) : Sftp OperationResult := do
  let host ← get
  if site = 0 then return .error (bytes "admin_panel_sftp_access_forbidden")
  else
    match host.accounts.resolveUsername user with
    | none => return .error (bytes "user not provisioned")
    | some username =>
        match env.siteResolver site with
        | none => return .error (bytes "site not found")
        | some info =>
            let target := env.target username (lastComponent info.root)
            match host.system.mountAt target with
            | none => return .ok (bytes "already unmounted")
            | some existing =>
                match mountMismatch existing target info.publicDir with
                | some reason => return .error (bytes "foreign_or_mismatched_mount:" ++ reason)
                | none => takeMount env phase username info

end ContainerCP.LocalSftp
