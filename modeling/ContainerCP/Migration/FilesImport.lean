import ContainerCP.Data.Store
import ContainerCP.Migration.Inspection

/-! `import_files` and `copy_files_to_public`: the public directory of a site replaced by the
files of a backup, with the safety copy and the rollback. -/
namespace ContainerCP.Migration

inductive FileNode where
  | file (content : Bytes)
  | directory
  | link (target : Bytes)
  deriving DecidableEq

/-- The files below a directory, by their paths from there. -/
abbrev FileTree := Store Bytes FileNode

/-- The disk in the course of an import: the public directory of the site, and the safety
copy in the staging directory. -/
structure FilesDisk where
  publicDir : FileTree
  marker : Option Bytes
  safetyCopy : Option FileTree := none

/-- How the commands and the checks end, with the error texts of the checks; `unsafeLink` is
what `rsync --safe-links` holds to be unsafe of the links at a path. -/
structure FilesCalls where
  unsafeLink : Bytes → Bytes → Bool
  runtimeError : Option Bytes := none
  uidGid : CommandResult
  staging : Bool := true
  extractWeb : Bool := true
  innerTar : List Bytes := []
  safetyCopy : Bool := true
  stop : Bool := true
  extract : Bool := true
  symlinks : List Bytes := []
  sourceDirectory : Bool := true
  realPaths : Bool := true
  insideExtracted : Bool := true
  clean : Bool := true
  copyFiles : Bool := true
  chown : Bool := true
  start : Bool := true
  health : Nat → CommandResult × CommandResult
  markerFile : Bool := true
  markerRename : Bool := true
  rollbackRemove : Bool := true
  rollbackCopy : Bool := true
  cleanup : Bool := true

/-- What the commands leave where their ends do not say it: the files of the backup, the
paths that a failed command took away or brought, and whether a failed removal of the staging
directory spares the safety copy. -/
structure FilesLeftovers where
  source : FileTree
  cleaned : Bytes → Bool
  copied : Bytes → Bool
  rollbackRemoved : Bytes → Bool
  rollbackCopied : Bytes → Bool
  stagingSpared : Bool

structure ImportFilesResult where
  success : Bool := false
  webRootType : Bytes := []
  errors : List Bytes := []
  deriving DecidableEq

/-! ## Up to the safety copy -/

/-- The owner of the files, as `stat -c %u:%g` prints it. -/
def parseUidGid (printed : CommandResult) : Except Bytes (Bytes × Bytes) :=
  if printed.exitCode ≠ 0 then .error (bytes "Cannot determine container UID/GID. Is site running?")
  else
    let line := printed.out.rdropWhile fun c => c = newline || c = ascii '\r'
    match cutAt (ascii ':') line with
    | none => .error (bytes "Invalid UID:GID format: " ++ line)
    | some (uid, gid) => if uid = [] || gid = [] then .error (bytes "Empty UID or GID") else .ok (uid, gid)

/-- What the import goes on with. -/
structure FilesPrepared where
  webRootType : Bytes
  siteId : UInt64
  deriving DecidableEq

/-- The checks up to the staging directory, with the web archive in it. -/
def prepareFiles (reads : Reads) (opts : Options) (calls : FilesCalls) : Except (List Bytes) FilesPrepared :=
  let manifest := inspect reads opts
  if manifest.errors ≠ [] then .error manifest.errors
  else if !manifest.canImportFiles then
    .error [if manifest.markerError ≠ [] then manifest.markerError
      else bytes "File import not available at current stage (" ++ decimal manifest.migrationStage.toNat ++
        bytes "). Stage 1 required."]
  else
    match calls.runtimeError with
    | some error => .error [error]
    | none =>
        match parseUidGid calls.uidGid with
        | .error error => .error [error]
        | .ok _ =>
            if !calls.staging then .error [bytes "Cannot create staging"]
            else if !calls.extractWeb then .error [bytes "Failed to extract web archive"]
            else .ok ⟨manifest.webRootType, manifest.migrationSiteId⟩

/-! ## `rsync` -/

/-- `rsync -a --safe-links`: what it takes from a tree. -/
def safeLinks (calls : FilesCalls) (tree : FileTree) : FileTree :=
  tree.keep fun path node =>
    match node with
    | .link target => !calls.unsafeLink path target
    | _ => true

/-- What it takes where it fails: some of that. -/
def partOf (taken : Bytes → Bool) (tree : FileTree) : FileTree := tree.keep fun path _ => taken path

/-! ## `copy_files_to_public` -/

section Copy

variable (calls : FilesCalls) (left : FilesLeftovers)

/-- `rollback_stage2`: what stands in the public directory afterwards. -/
def rollbackStage2 (safety publicDir : FileTree) : FileTree :=
  let removed := if calls.rollbackRemove then ∅ else publicDir.keep fun path _ => !left.rollbackRemoved path
  let restored := safeLinks calls safety
  (if calls.rollbackCopy then restored else partOf left.rollbackCopied restored).above removed

/-- `parse_status`: whether the container runs, and whether it is healthy. -/
def parseStatus (out : Bytes) : Bool × Bool :=
  match cutAt pipe out with
  | none => (false, false)
  | some (state, behind) =>
      match cutAt pipe behind with
      | none => (false, false)
      | some (health, _) => (state = bytes "running", health = bytes "healthy")

/-- Both containers are healthy at one of the checks, or they run at the last one. -/
def healthy : Bool :=
  (List.range 60).any (fun i => (parseStatus (calls.health i).1.out).2 && (parseStatus (calls.health i).2.out).2) ||
    ((parseStatus (calls.health 59).1.out).1 && (parseStatus (calls.health 59).2.out).1)

/-- The way out behind the stop: the errors, and what the rollback leaves. -/
def undoFiles (safety : FileTree) (errors : List Bytes) (publicDir : FileTree) : List Bytes × FileTree :=
  (errors, rollbackStage2 calls left safety publicDir)

/-- The steps behind the extraction. Without errors it has copied the files. -/
def replacePublic (safety publicDir : FileTree) : List Bytes × FileTree :=
  let undo := undoFiles calls left safety
  if !calls.clean then undo [bytes "Failed to clean public"] (publicDir.keep fun path _ => !left.cleaned path)
  else
    let source := safeLinks calls left.source
    if !calls.copyFiles then undo [bytes "rsync failed"] (partOf left.copied source)
    else if !calls.chown then undo [bytes "Ownership fix failed"] source
    else if !calls.start then undo [bytes "Failed to start web/php"] source
    else if !healthy calls then undo [bytes "Health check timeout " ++ [0xE2, 0x80, 0x94] ++ bytes " rolling back"] source
    else ([], source)

/-- `copy_files_to_public`: its errors, the public directory and the safety copy. -/
def copyFilesToPublic (webRootType : Bytes) (publicDir : FileTree) : List Bytes × FileTree × Option FileTree :=
  if calls.innerTar ≠ [] then (calls.innerTar, publicDir, none)
  else
    let safety := safeLinks calls publicDir
    if !calls.safetyCopy then ([bytes "Safety copy failed"], publicDir, none)
    else if !calls.stop then ([bytes "Failed to stop web/php"], publicDir, some safety)
    else
      let undo := fun errors : List Bytes =>
        let (errors, publicDir) := undoFiles calls left safety errors publicDir
        (errors, publicDir, some safety)
      if !calls.extract then undo [bytes "Extraction failed"]
      else if calls.symlinks ≠ [] then undo calls.symlinks
      else if !calls.sourceDirectory then undo [bytes "Web root not found: " ++ webRootType]
      else if !calls.realPaths then undo [bytes "Path resolution failed"]
      else if !calls.insideExtracted then undo [bytes "Web root outside extract dir (sibling rejected)"]
      else
        let (errors, publicDir) := replacePublic calls left safety publicDir
        (errors, publicDir, some safety)

end Copy

/-! ## `import_files` -/

/-- `cleanup`. -/
def cleanupFiles (opts : Options) (calls : FilesCalls) (left : FilesLeftovers) (disk : FilesDisk) : FilesDisk :=
  if opts.keepStaging then disk
  else { disk with safetyCopy := if calls.cleanup || !left.stagingSpared then none else disk.safetyCopy }

/-- The marker behind an import of the files. -/
def filesMarker (opts : Options) (siteId : UInt64) : MigrationMarker where
  version := 1
  domain := opts.domain
  owner := opts.owner
  siteId := siteId
  stage := 2
  filesPending := false
  filesImported := true
  sqlPending := true

/-- `import_files`. Behind `copy_files_to_public` the result says success already, also where
the marker cannot be written. -/
def importFiles (reads : Reads) (opts : Options) (calls : FilesCalls) (left : FilesLeftovers) (publicDir : FileTree) :
    ImportFilesResult × FilesDisk :=
  let disk : FilesDisk := ⟨publicDir, reads.marker, none⟩
  match prepareFiles reads opts calls with
  | .error errors => ({ errors := errors }, disk)
  | .ok prepared =>
      let (errors, publicDir, safety) := copyFilesToPublic calls left prepared.webRootType publicDir
      let disk := cleanupFiles opts calls left { disk with publicDir := publicDir, safetyCopy := safety }
      if errors ≠ [] then ({ errors := errors }, disk)
      else
        let result : ImportFilesResult := { success := true, webRootType := prepared.webRootType }
        if !calls.markerFile then
          ({ result with errors := [bytes "CRITICAL: Files imported but failed to update migration marker"] }, disk)
        else if !calls.markerRename then
          ({ result with errors := [bytes "CRITICAL: Files imported but failed to rename migration marker"] }, disk)
        else (result, { disk with marker := some (filesMarker opts prepared.siteId).toJson })

end ContainerCP.Migration
