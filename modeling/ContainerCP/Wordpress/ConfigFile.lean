import ContainerCP.Posix.Process
import ContainerCP.Text.Decimal
import ContainerCP.Wordpress.ConfigUpdater

/-! The file with the configuration: which path `inspect_config_path` takes for it, and
how `update_file_atomic` and `update_file_atomic_validated` replace it. -/
namespace ContainerCP.Wordpress

open Control Posix

/-! ## Paths as texts -/

/-- A `std::filesystem::path`: its names, and whether there is a slash in front of them
and behind them. -/
structure FsPath where
  absolute : Bool
  names : List Name
  trailing : Bool := false
  deriving DecidableEq

def FsPath.isEmpty (path : FsPath) : Bool := !path.absolute && path.names.isEmpty

/-- An absolute path in its normal form. -/
structure NormalPath where
  names : Path
  trailing : Bool := false
  deriving DecidableEq

def dot : Name := bytes "."

def dotDot : Name := bytes ".."

def pushName (names : Path) (name : Name) : Path :=
  if name = dot then names else if name = dotDot then names.dropLast else names ++ [name]

/-- `lexically_normal` of an absolute path. A dot or two dots at the end leave a slash. -/
def lexicallyNormal (names : List Name) (trailing : Bool) : NormalPath :=
  ⟨names.foldl pushName [], trailing || names.getLast? = some dot || names.getLast? = some dotDot⟩

def NormalPath.filename (path : NormalPath) : Name := if path.trailing then [] else path.names.getLast?.getD []

def NormalPath.toFsPath (path : NormalPath) : FsPath := ⟨true, path.names, path.trailing⟩

/-- `fs::absolute`. Only a relative path needs the working directory. -/
def absolute (currentPath : Option Path) (path : FsPath) : Option NormalPath :=
  if path.absolute then some (lexicallyNormal path.names path.trailing)
  else currentPath.map fun directory => lexicallyNormal (directory ++ path.names) path.trailing

/-- The path of the configuration, below the root where it is relative. -/
def candidate (root : NormalPath) (configPath : FsPath) : NormalPath :=
  if configPath.absolute then lexicallyNormal configPath.names configPath.trailing
  else lexicallyNormal (root.names ++ configPath.names) configPath.trailing

/-! ## The inspection of the path -/

/-- How the calls of one inspection go. -/
structure InspectOracle where
  currentPath : Option Path := some []
  statsRoot : Verdict := .works
  stats : Nat → Verdict := fun _ => .works

inductive ConfigPathSafety where
  | safe (siteRoot configPath : NormalPath)
  | rejected (code message : Bytes)
  deriving DecidableEq

def configFilename : Name := bytes "wp-config.php"

/-- `symlink_status`. With a slash at the end the last link is followed too. -/
def symlinkStatus (tree : Tree) (path : NormalPath) : Option Node :=
  if path.trailing then
    (tree.resolve path.names).bind fun place => if tree.isDirectory place then some .directory else none
  else tree.lstat path.names

/-- The loop over the names below the root. Nothing is wrong where it comes to its end. -/
def inspectParts (stats : Nat → Verdict) : Nat → Path → List Name → Process (Option (Bytes × Bytes))
  | _, _, [] => pure none
  | round, current, part :: rest => do
      let status ← observe (stats round) (·.lstat (current ++ [part])) none
      match status with
      | none =>
          if rest = [] then return some (bytes "config_missing", bytes "WordPress config file does not exist")
          else return some (bytes "parent_missing", bytes "WordPress config parent path does not exist")
      | some (.link _) => return some (bytes "symlink_rejected", bytes "WordPress config path contains a symlink")
      | some .directory =>
          if rest = [] then
            return some (bytes "config_not_regular", bytes "WordPress config path is not a regular file")
          else inspectParts stats (round + 1) (current ++ [part]) rest
      | some (.file _) =>
          if rest = [] then return none
          else return some (bytes "parent_not_directory", bytes "WordPress config parent path is not a directory")

/-- What stands at the root and below it. -/
def inspectTree (oracle : InspectOracle) (root config : NormalPath) : Process ConfigPathSafety := do
  let status ← observe oracle.statsRoot (symlinkStatus · root) none
  match status with
  | none => return .rejected (bytes "site_root_missing") (bytes "Site root does not exist")
  | some (.link _) => return .rejected (bytes "symlink_rejected") (bytes "Site root must not be a symlink")
  | some (.file _) => return .rejected (bytes "site_root_not_directory") (bytes "Site root must be a directory")
  | some .directory =>
      if config.names = root.names then
        -- the only part is a dot, which is a directory where the root is one
        let status ← observe (oracle.stats 0) (symlinkStatus · { root with trailing := true }) none
        if status.isSome then return .safe root config
        else return .rejected (bytes "parent_missing") (bytes "WordPress config parent path does not exist")
      else
        let problem ← inspectParts oracle.stats 0 root.names (config.names.drop root.names.length)
        match problem with
        | none => return .safe root config
        | some (code, message) => return .rejected code message

/-- `inspect_config_path`. -/
def inspectConfigPath (oracle : InspectOracle) (siteRoot configPath : FsPath) : Process ConfigPathSafety :=
  if siteRoot.isEmpty then return .rejected (bytes "site_root_missing") (bytes "Site root is required")
  else if configPath.isEmpty then
    return .rejected (bytes "config_path_missing") (bytes "WordPress config path is required")
  else
    match absolute oracle.currentPath siteRoot with
    | none => return .rejected (bytes "site_root_invalid") (bytes "Site root could not be resolved")
    | some root =>
        let config := candidate root configPath
        if config.filename ≠ configFilename then
          return .rejected (bytes "not_active_config") (bytes "Only active wp-config.php files are accepted")
        else if !root.names.isPrefixOf config.names then
          return .rejected (bytes "path_outside_root") (bytes "WordPress config path escapes the site root")
        else inspectTree oracle root config

/-! ## Writing the file -/

/-- Who runs the process. A group that the user is not in costs the set-group-ID bit at
`fchmod`. -/
inductive Caller where
  | root
  | user (inGroup : Bool)
  deriving DecidableEq

def setUserId : Nat := 0o4000

def setGroupId : Nat := 0o2000

def groupExecute : Nat := 0o010

def clearBits (mask mode : Nat) : Nat := mode ^^^ (mode &&& mask)

/-- What `fchmod` makes of a mode. -/
def Caller.chmodMode : Caller → Nat → Nat
  | .user false, mode => clearBits setGroupId mode
  | .user true, mode | .root, mode => mode

/-- What is left of a mode after `fchown`: the set-user-ID bit goes, and the
set-group-ID bit of a file that its group may execute. -/
def chownMode (mode : Nat) : Nat :=
  if mode &&& groupExecute = 0 then clearBits setUserId mode else clearBits setGroupId (clearBits setUserId mode)

/-- The mode that a file has in the end. -/
def Caller.finalMode (caller : Caller) (mode : Nat) : Nat :=
  if caller = .root then chownMode (caller.chmodMode mode) else caller.chmodMode mode

/-- How the calls of one replacement go. A `write` that takes nothing is a failure; one
that was interrupted is made again. -/
structure ReplaceOracle where
  pid : Nat
  counter : Nat
  opens : Verdict := .works
  writes : Nat → Verdict := fun _ => .works
  taken : Nat → Nat
  chmods : Verdict := .works
  chowns : Verdict := .works
  syncs : Verdict := .works
  closes : Verdict := .works
  unlinks : Verdict := .works
  stats : Verdict := .works
  renames : Verdict := .works

/-- `make_temp_path`. -/
def makeTempPath (oracle : ReplaceOracle) (config : Path) : Path :=
  config.dropLast ++ [bytes "." ++ config.getLast?.getD [] ++ bytes ".containercp-tmp-" ++ decimal oracle.pid ++ bytes "-" ++
    decimal oracle.counter]

/-- `write_all`, with as many rounds left as there can be bytes. -/
def writeAll (oracle : ReplaceOracle) (path : Path) : Nat → Nat → Bytes → Process Bool
  | _, _, [] => pure true
  | 0, _, _ :: _ => pure false
  | left + 1, round, c :: data => do
      let count := oracle.taken round
      if count = 0 then return false
      else
        let written ← attempt (oracle.writes round) (·.append path ((c :: data).take count))
        if written then writeAll oracle path left (round + 1) ((c :: data).drop count) else return false

/-- `fchown`, which only root calls. -/
def chownTemp (caller : Caller) (oracle : ReplaceOracle) (temp : Path) (mode : Nat) : Process Bool :=
  if caller = .root then attempt oracle.chowns (·.chmod temp (caller.finalMode mode)) else pure true

/-- From `write_all` to `fsync`: the error code, or nothing. -/
def prepareTemp (caller : Caller) (oracle : ReplaceOracle) (temp : Path) (content : Bytes) (mode : Nat) :
    Process (Option Bytes) := do
  let written ← writeAll oracle temp content.length 0 content
  if written then
    let chmodded ← attempt oracle.chmods (·.chmod temp (caller.chmodMode mode))
    if chmodded then
      let chowned ← chownTemp caller oracle temp mode
      if chowned then
        let synced ← attempt oracle.syncs .ok
        if synced then return none else return some (bytes "temp_sync_failed")
      else return some (bytes "metadata_preserve_failed")
    else return some (bytes "metadata_preserve_failed")
  else return some (bytes "temp_write_failed")

def isRegular : Option Node → Bool
  | some (.file _) => true
  | _ => false

def abandon (oracle : ReplaceOracle) (temp : Path) (code : Bytes) : Process (Option Bytes) := do
  let _ ← attempt oracle.unlinks (·.unlink temp)
  return some code

/-- `write_atomic_preserving_metadata`: the error code, or nothing. What `fsync` does for
the directory shows only after a loss of power. -/
def writeAtomicPreservingMetadata (caller : Caller) (oracle : ReplaceOracle) (config : Path) (content : Bytes)
    (mode : Nat) : Process (Option Bytes) := do
  let temp := makeTempPath oracle config
  let opened ← attempt oracle.opens (·.createNew temp 0o600)
  if opened then
    let problem ← prepareTemp caller oracle temp content mode
    let closed ← attempt oracle.closes .ok
    match problem with
    | some code => abandon oracle temp code
    | none =>
        if closed then
          let regular ← observe oracle.stats (fun tree => isRegular (tree.lstat config)) false
          if regular then
            let renamed ← attempt oracle.renames (·.rename temp config)
            if renamed then return none else abandon oracle temp (bytes "atomic_rename_failed")
          else abandon oracle temp (bytes "unsafe_path")
        else abandon oracle temp (bytes "temp_close_failed")
  else return some (bytes "temp_create_failed")

/-! ## The update and its rollback -/

structure WordPressConfigFieldUpdate where
  field : WordPressConfigUpdateField
  value : Bytes
  deriving DecidableEq

structure WordPressConfigRollbackHandle where
  siteRoot : NormalPath
  configPath : NormalPath
  previousContent : Bytes
  mode : Nat
  deriving DecidableEq

/-- A result with its message and, where the file was updated, the way back; or the code
and the message of the failure. -/
inductive WordPressConfigFileUpdateResult where
  | ok (message : Bytes) (rollback : Option WordPressConfigRollbackHandle)
  | failure (code message : Bytes)
  deriving DecidableEq

namespace WordPressConfigFileUpdateResult

def success : WordPressConfigFileUpdateResult → Bool
  | ok _ _ => true
  | failure _ _ => false

def code : WordPressConfigFileUpdateResult → Bytes
  | ok _ _ => bytes "ok"
  | failure code _ => code

end WordPressConfigFileUpdateResult

/-- One update after the other. -/
def renderUpdates (content : Bytes) : List WordPressConfigFieldUpdate → WordPressConfigUpdateResult
  | [] => .ok content
  | update :: updates =>
      match renderUpdate content update.field update.value with
      | .ok rendered => renderUpdates rendered updates
      | .failure code message => .failure code message

/-- What a read gives that fails behind some bytes. -/
def deliver (delivered : Option Nat) (content : Bytes) : Bytes :=
  match delivered with
  | none => content
  | some count => content.take count

/-- `read_file`. The stream's state is not looked at after the read. -/
def readFile (opens : Verdict) (delivered : Option Nat) (path : Path) : Process (Option Bytes) :=
  observe opens (fun tree => (tree.read path).map (deliver delivered)) none

structure UpdateOracle where
  inspects : InspectOracle := {}
  stats : Verdict := .works
  opens : Verdict := .works
  delivered : Option Nat := none
  replaces : ReplaceOracle

/-- `update_file_atomic` behind the inspection of the path. -/
def updateInspected (caller : Caller) (oracle : UpdateOracle) (root config : NormalPath)
    (updates : List WordPressConfigFieldUpdate) : Process WordPressConfigFileUpdateResult := do
  let metadata ← observe oracle.stats (·.lstat config.names) none
  match metadata with
  | some (.file file) =>
      let currentContent ← readFile oracle.opens oracle.delivered config.names
      match currentContent with
      | none => return .failure (bytes "config_read_failed") (bytes "WordPress config file could not be read")
      | some content =>
          match renderUpdates content updates with
          | .failure code message => return .failure code message
          | .ok rendered =>
              let problem ← writeAtomicPreservingMetadata caller oracle.replaces config.names rendered file.mode
              match problem with
              | some code => return .failure code (bytes "WordPress config file could not be updated atomically")
              | none => return .ok (bytes "WordPress config file updated atomically") (some ⟨root, config, content, file.mode⟩)
  | none | some .directory | some (.link _) =>
      return .failure (bytes "unsafe_path") (bytes "WordPress config path is not a regular file")

/-- `update_file_atomic`. -/
def updateFileAtomic (caller : Caller) (oracle : UpdateOracle) (siteRoot configPath : FsPath)
    (updates : List WordPressConfigFieldUpdate) : Process WordPressConfigFileUpdateResult :=
  if updates = [] then
    return .failure (bytes "updates_missing") (bytes "At least one WordPress credential update is required")
  else do
    let safety ← inspectConfigPath oracle.inspects siteRoot configPath
    match safety with
    | .rejected code message => return .failure code message
    | .safe root config => updateInspected caller oracle root config updates

structure RollbackOracle where
  inspects : InspectOracle := {}
  replaces : ReplaceOracle

/-- `rollback_file`. -/
def rollbackFile (caller : Caller) (oracle : RollbackOracle) (rollback : Option WordPressConfigRollbackHandle) :
    Process WordPressConfigFileUpdateResult :=
  match rollback with
  | none => return .failure (bytes "rollback_invalid") (bytes "Rollback handle is invalid")
  | some handle => do
      let safety ← inspectConfigPath oracle.inspects handle.siteRoot.toFsPath handle.configPath.toFsPath
      match safety with
      | .rejected code message => return .failure code message
      | .safe _ config =>
          let problem ← writeAtomicPreservingMetadata caller oracle.replaces config.names handle.previousContent handle.mode
          match problem with
          | some code => return .failure code (bytes "WordPress config file could not be rolled back atomically")
          | none => return .ok (bytes "WordPress config file rolled back atomically") none

/-- What follows a validation that failed. -/
def undoUpdate (caller : Caller) (back : RollbackOracle) (rollback : Option WordPressConfigRollbackHandle) :
    Process WordPressConfigFileUpdateResult := do
  let rolledBack ← rollbackFile caller back rollback
  if rolledBack.success then
    return .failure (bytes "syntax_validation_failed") (bytes "WordPress config validation failed and rollback completed")
  else
    return .failure (bytes "validation_failed_rollback_failed")
      (bytes "WordPress config validation failed and automatic rollback did not complete")

/-- `update_file_atomic_validated`. There may be no validator, and one that is there
succeeds or not. -/
def updateFileAtomicValidated (caller : Caller) (oracle : UpdateOracle) (back : RollbackOracle) (validator : Option Bool)
    (siteRoot configPath : FsPath) (updates : List WordPressConfigFieldUpdate) :
    Process WordPressConfigFileUpdateResult :=
  match validator with
  | none =>
      return .failure (bytes "validator_missing") (bytes "WordPress config validation boundary is required")
  | some valid => do
      let update ← updateFileAtomic caller oracle siteRoot configPath updates
      match update with
      | .failure code message => return .failure code message
      | .ok message rollback =>
          if valid then return .ok message rollback else undoUpdate caller back rollback

end ContainerCP.Wordpress
