import ContainerCP.Ssl.CertificateMetadata
import ContainerCP.Posix.Process

/-! `CertificateStore`: the certificate of a site, in numbered version directories
and a link `current` to one of them. A site is its directory below the root of the
store. -/
namespace ContainerCP.Ssl

open Control Posix

/-! ## The layout -/

/-- The files of a version. -/
inductive Part where
  | fullchain
  | privkey
  | chain
  | metadata
  deriving DecidableEq

namespace Part

def fileName : Part → Name
  | fullchain => bytes "fullchain.pem"
  | privkey => bytes "privkey.pem"
  | chain => bytes "chain.pem"
  | metadata => bytes "metadata.json"

theorem fileName_injective : Function.Injective fileName := by
  intro part part' h
  cases part <;> cases part' <;> first | rfl | exact absurd h (by decide)

def mode : Part → Nat
  | privkey => 0o600
  | fullchain | chain | metadata => 0o644

end Part

/-- What the files of a version hold. -/
abbrev Bundle := Part → Bytes

def bundleOf (metadata : Metadata) (fullchain privkey chain : Bytes) : Bundle
  | .fullchain => fullchain
  | .privkey => privkey
  | .chain => chain
  | .metadata => metadataToJson metadata

def versionsName : Name := bytes "versions"

def currentName : Name := bytes "current"

def versionsDir (site : Path) : Path := site ++ [versionsName]

def currentLink (site : Path) : Path := site ++ [currentName]

def versionDir (site : Path) (name : Name) : Path := versionsDir site ++ [name]

/-- `metadata_path`, `fullchain_path`, `privkey_path` and `chain_path`. -/
def partPath (site : Path) (part : Part) : Path := currentLink site ++ [part.fileName]

def tempName (name : Name) : Name := name ++ bytes ".tmp"

/-! ## Writing a file -/

/-- How the calls of one `atomic_write` go: `taken` bounds the bytes that a `write`
takes, and it takes one at least. -/
structure WriteOracle where
  opens : Verdict := .works
  writes : Nat → Verdict := fun _ => .works
  taken : Nat → Nat
  syncs : Verdict := .works
  renames : Verdict := .works
  unlinks : Verdict := .works

def fsync (verdict : Verdict) : Process Bool := attempt verdict .ok

/-- The loop around `write`, with as many rounds left as there can be bytes. -/
def writeRounds (oracle : WriteOracle) (path : Path) : Nat → Nat → Bytes → Process Bool
  | _, _, [] => pure true
  | 0, _, _ :: _ => pure false
  | left + 1, round, c :: data => do
      let count := max 1 (oracle.taken round)
      let written ← attempt (oracle.writes round) (·.append path ((c :: data).take count))
      if written then writeRounds oracle path left (round + 1) ((c :: data).drop count) else return false

def discard (verdict : Verdict) (path : Path) : Process Bool := do
  let _ ← attempt verdict (·.unlink path)
  return false

def atomicWrite (oracle : WriteOracle) (directory : Path) (name : Name) (content : Bytes) (mode : Nat) :
    Process Bool := do
  let temp := directory ++ [tempName name]
  let opened ← attempt oracle.opens (·.create temp mode)
  if opened then
    let written ← writeRounds oracle temp content.length 0 content
    if written then
      let synced ← fsync oracle.syncs
      if synced then
        let renamed ← attempt oracle.renames (·.rename temp (directory ++ [name]))
        if renamed then return true else discard oracle.unlinks temp
      else discard oracle.unlinks temp
    else discard oracle.unlinks temp
  else return false

/-! ## Versions -/

/-- `mkdir` that takes a directory as it finds it. -/
def makeDirectory (verdict : Verdict) (path : Path) : Process Bool := do
  let result ← call verdict (·.mkdir path)
  return match result with
    | .ok _ => true
    | .error .exists => true
    | .error .other => false

def ensureSiteDir (site : Path) (makeSite makeVersions : Verdict) : Process Bool := do
  let made ← makeDirectory makeSite site
  if made then makeDirectory makeVersions (versionsDir site) else return false

/-- The names of directories that are all digits, with their numbers; nothing where
`stoi` throws. -/
def versionNumbers : List (Name × Bool) → Option (List (Name × Int32))
  | [] => some []
  | (name, isDirectory) :: rest =>
      if isDirectory && name.all isDigit then
        match stoi name with
        | none => none
        | some number => (versionNumbers rest).map ((name, number) :: ·)
      else versionNumbers rest

/-- The additions and comparisons are those of `int`, which wrap around here. -/
def nextVersion (versions : List (Name × Int32)) : Int32 :=
  versions.foldl (fun highest version => if version.2 > highest then version.2 else highest) 0 + 1

def findNextVersion (site : Path) (lists : Verdict) : Process Int32 := do
  let entries ← observe lists (·.list (versionsDir site)) none
  match entries with
  | none => return 1
  | some entries =>
      match versionNumbers entries with
      | none => leave fun _ => .exception
      | some versions => return nextVersion versions

structure RemoveOracle where
  unlinks : Part → Verdict := fun _ => .works
  rmdir : Verdict := .works

def removeVersion (oracle : RemoveOracle) (directory : Path) : Process Unit := do
  let _ ← attempt (oracle.unlinks .fullchain) (·.unlink (directory ++ [Part.fullchain.fileName]))
  let _ ← attempt (oracle.unlinks .privkey) (·.unlink (directory ++ [Part.privkey.fileName]))
  let _ ← attempt (oracle.unlinks .chain) (·.unlink (directory ++ [Part.chain.fileName]))
  let _ ← attempt (oracle.unlinks .metadata) (·.unlink (directory ++ [Part.metadata.fileName]))
  let _ ← attempt oracle.rmdir (·.rmdir directory)
  return ()

/-- The loop of the clean-up. `stoi` throws at the entry that it cannot read, behind
the work on those in front of it. -/
def removeOldVersions (oracle : Name → RemoveOracle) (site : Path) (newVersion : Int32) :
    List (Name × Bool) → Process Unit
  | [] => pure ()
  | (name, isDirectory) :: rest =>
      if isDirectory && name.all isDigit then
        match stoi name with
        | none => leave fun _ => .exception
        | some number => do
            when (number < newVersion - 1) (removeVersion (oracle name) (versionDir site name))
            removeOldVersions oracle site newVersion rest
      else removeOldVersions oracle site newVersion rest

/-! ## Replacing a certificate -/

structure SaveOracle where
  makeSite : Verdict := .works
  makeVersions : Verdict := .works
  listsVersions : Verdict := .works
  makeVersion : Verdict := .works
  writes : Part → WriteOracle
  rollback : RemoveOracle := {}
  syncVersion : Verdict := .works
  unlinkStale : Verdict := .works
  link : Verdict := .works
  syncBefore : Verdict := .works
  swap : Verdict := .works
  unlinkTemp : Verdict := .works
  syncAfter : Verdict := .works
  listsOld : Verdict := .works
  removes : Name → RemoveOracle := fun _ => {}

structure OperationResult where
  success : Bool
  message : String
  deriving DecidableEq

/-- The files in their order, up to the first that fails. -/
def writeParts (oracle : Part → WriteOracle) (directory : Path) (bundle : Bundle) : List Part → Process Bool
  | [] => pure true
  | part :: rest => do
      let written ← atomicWrite (oracle part) directory part.fileName (bundle part) part.mode
      if written then writeParts oracle directory bundle rest else return false

def cleanUp (oracle : SaveOracle) (site : Path) (newVersion : Int32) : Process Unit := do
  let entries ← observe oracle.listsOld (·.list (versionsDir site)) none
  match entries with
  | none => return ()
  | some entries => removeOldVersions oracle.removes site newVersion entries

/-- The swap of the link `current`, behind the write of the new version. -/
def switchVersion (oracle : SaveOracle) (site : Path) (newVersion : Int32) : Process OperationResult := do
  let name := decimalInt newVersion.toInt
  let temp := site ++ [tempName currentName]
  let _ ← fsync oracle.syncVersion
  let _ ← attempt oracle.unlinkStale (·.unlink temp)
  let linked ← attempt oracle.link (·.symlink [versionsName, name] temp)
  if linked then
    let _ ← fsync oracle.syncBefore
    let swapped ← attempt oracle.swap (·.rename temp (currentLink site))
    if swapped then
      let _ ← fsync oracle.syncAfter
      cleanUp oracle site newVersion
      return ⟨true, ""⟩
    else
      let _ ← attempt oracle.unlinkTemp (·.unlink temp)
      return ⟨false, "Failed to finalize certificate update"⟩
  else
    removeVersion oracle.rollback (versionDir site name)
    return ⟨false, "Failed to create symlink"⟩

/-- `save_all`. -/
def saveAll (oracle : SaveOracle) (site : Path) (bundle : Bundle) : Process OperationResult := do
  let ready ← ensureSiteDir site oracle.makeSite oracle.makeVersions
  if ready then
    let newVersion ← findNextVersion site oracle.listsVersions
    let directory := versionDir site (decimalInt newVersion.toInt)
    let made ← attempt oracle.makeVersion (·.mkdir directory)
    if made then
      let written ← writeParts oracle.writes directory bundle [.fullchain, .privkey, .chain, .metadata]
      if written then switchVersion oracle site newVersion
      else
        removeVersion oracle.rollback directory
        return ⟨false, "Failed to write certificate files"⟩
    else return ⟨false, "Failed to create version directory"⟩
  else return ⟨false, "Failed to create site directory"⟩

/-! ## The layout without versions, and loading -/

structure MigrationOracle where
  makeVersion : Verdict := .works
  stats : Part → Verdict := fun _ => .works
  moves : Part → Verdict := fun _ => .works
  link : Verdict := .works
  sync : Verdict := .works

def hasFlatFiles (verdict : Verdict) (site : Path) : Process Bool :=
  observe verdict (·.present (site ++ [Part.metadata.fileName])) false

def moveIfExists (oracle : MigrationOracle) (site directory : Path) (part : Part) : Process Unit := do
  let found ← observe (oracle.stats part) (·.present (site ++ [part.fileName])) false
  when found do
    let _ ← attempt (oracle.moves part) (·.rename (site ++ [part.fileName]) (directory ++ [part.fileName]))
    return ()

def migrateFlatToVersioned (oracle : MigrationOracle) (site : Path) (version : Int32) : Process Unit := do
  let name := decimalInt version.toInt
  let directory := versionDir site name
  let _ ← attempt oracle.makeVersion (·.mkdir directory)
  moveIfExists oracle site directory .metadata
  moveIfExists oracle site directory .fullchain
  moveIfExists oracle site directory .privkey
  moveIfExists oracle site directory .chain
  let _ ← attempt oracle.link (·.symlink [versionsName, name] (currentLink site))
  let _ ← fsync oracle.sync
  return ()

inductive LoadError where
  | none
  | notFound
  | invalidJson
  | unsupportedVersion
  | ioError
  | invalidSchema
  deriving DecidableEq

structure MetadataLoadResult where
  success : Bool := false
  metadata : Metadata := {}
  error : LoadError := .none
  message : Bytes := []
  deriving DecidableEq

def siteText (siteId : UInt64) : Bytes := decimal siteId.toNat

/-- What `load_metadata` makes of the text of `metadata.json`. Nothing stands for a
reader that does not come to its end within the fuel. -/
def interpretMetadata (fuel : Nat) (siteId : UInt64) (json : Bytes) : Option MetadataLoadResult :=
  if json = [] then
    some { error := .ioError, message := bytes "metadata.json is empty for site " ++ siteText siteId }
  else
    (metadataFromJson fuel json).map fun
      | .error what =>
          { error := .invalidJson, message := bytes "Failed to parse metadata.json: " ++ what }
      | .ok metadata =>
          if metadata.version ≤ 0 then
            { metadata, error := .invalidJson
              message := bytes "metadata.json has invalid version: " ++ decimalInt metadata.version.toInt }
          else if metadata.version > 1 then
            { metadata, error := .unsupportedVersion
              message := bytes "metadata.json version " ++ decimalInt metadata.version.toInt ++
                bytes " is not supported by this version of ContainerCP" }
          else if metadata.siteId ≠ siteId then
            { metadata, error := .invalidSchema
              message := bytes "metadata.json site_id mismatch: expected " ++ siteText siteId ++ bytes ", got " ++
                siteText metadata.siteId }
          else { metadata, success := true }

structure LoadOracle where
  statCurrent : Verdict := .works
  statFlat : Verdict := .works
  migration : MigrationOracle := {}
  statMetadata : Verdict := .works
  reads : Verdict := .works

/-- The version that `current` leads to, or one made of the flat files; false where
there is neither. -/
def ensureCurrent (oracle : LoadOracle) (site : Path) : Process Bool := do
  let linked ← observe oracle.statCurrent (·.present (currentLink site)) false
  if linked then return true
  else
    let flat ← hasFlatFiles oracle.statFlat site
    if flat then
      migrateFlatToVersioned oracle.migration site 1
      return true
    else return false

/-- `load_metadata`. -/
def loadMetadata (oracle : LoadOracle) (fuel : Nat) (site : Path) (siteId : UInt64) :
    Process (Option MetadataLoadResult) := do
  let ready ← ensureCurrent oracle site
  if ready then
    let found ← observe oracle.statMetadata (·.present (partPath site .metadata)) false
    if found then
      let json ← observe oracle.reads (·.read (partPath site .metadata)) none
      return interpretMetadata fuel siteId (json.getD [])
    else
      return some { error := .notFound, message := bytes "metadata.json not found for site " ++ siteText siteId }
  else return some { error := .notFound, message := bytes "No certificate data for site " ++ siteText siteId }

end ContainerCP.Ssl
