import ContainerCP.Migration.DumpLookup
import ContainerCP.Migration.MigrationMarker
import ContainerCP.Wordpress.ConfigDetector

/-! `inspect`: what the importer finds in a backup and at the site before it changes
anything. -/
namespace ContainerCP.Migration

open Wordpress

structure CommandResult where
  exitCode : Int := 0
  out : Bytes := []
  deriving DecidableEq

structure Options where
  domain : Bytes
  owner : Bytes
  database : Bytes := []
  keepStaging : Bool := false
  skipDb : Bool := false
  deriving DecidableEq

/-- What the importer reads. `webRootType` is what `detect_web_root` answers and `config` the
`wp-config.php` that it takes out of the backup; `site` is the id of the site's record and
`domainRecord` the site of the domain's record. -/
structure Reads where
  optionsError : Bytes := []
  listing : CommandResult
  staging : Bool := true
  webRootType : Bytes
  configStaging : Bool := true
  config : Option Bytes
  site : Option UInt64
  domainRecord : Option UInt64 := none
  siteDirectory : Bool := true
  marker : Option Bytes
  deriving DecidableEq

structure Manifest where
  domainFound : Bool := false
  webArchivePath : Bytes := []
  webRootType : Bytes := []
  wpConfigFound : Bool := false
  wpConfigParsed : Bool := false
  wpDbName : Bytes := []
  wpDbUser : Bytes := []
  wpDbHost : Bytes := []
  wpDbAmbiguous : Bool := false
  dbDumpFound : Bool := false
  dbDumpPath : Bytes := []
  dbType : Bytes := []
  allDatabases : List Bytes := []
  siteExists : Bool := false
  migrationMarkerFound : Bool := false
  migrationStage : UInt64 := 0
  filesPending : Bool := false
  filesImported : Bool := false
  sqlPending : Bool := false
  canImportFiles : Bool := false
  canImportSql : Bool := false
  migrationCompleted : Bool := false
  migrationSiteId : UInt64 := 0
  migrationOwner : Bytes := []
  filesStatus : Bytes := []
  sqlStatus : Bytes := []
  markerError : Bytes := []
  errors : List Bytes := []
  warnings : List Bytes := []
  deriving DecidableEq

/-! ## The listing -/

/-- The lines of a listing, up to one that leads out of the directory. -/
def safeEntries : List Bytes → Except Bytes (List Bytes)
  | [] => .ok []
  | line :: rest =>
      if line = [] then safeEntries rest
      else if line.head? = some slash then .error (bytes "Archive contains an unsafe absolute path")
      else if bytes ".." ∈ getlines slash line then .error (bytes "Archive contains an unsafe parent directory reference")
      else (safeEntries rest).map (line :: ·)

/-- `tar_safe_list`, by what `tar -tf` prints. -/
def tarSafeList (listing : CommandResult) : Except Bytes (List Bytes) :=
  if listing.exitCode ≠ 0 then .error (bytes "Failed to read archive") else safeEntries (getlines newline listing.out)

def webArchive (domain : Bytes) : Bytes := bytes "web/" ++ domain ++ bytes "/domain_data.tar.gz"

/-- `find_domain_in_archive`. -/
def findDomainInArchive (entries : List Bytes) (domain : Bytes) : Bool :=
  entries.any fun entry => entry = bytes "./" ++ webArchive domain || entry = webArchive domain

/-! ## The configuration -/

/-- `extract_wp_config`, from the content that it took out of the backup. -/
def extractWpConfig (content : Option Bytes) (manifest : Manifest) : Manifest :=
  match content with
  | none => manifest
  | some content =>
      let inspection := inspectContent content
      let present := fun value : WordPressCredentialValue => value.source = .directConstant && value.state = .present
      let parsed := present inspection.dbName && inspection.dbName.value ≠ []
      { manifest with
        wpConfigFound := [inspection.dbName, inspection.dbUser, inspection.dbPassword, inspection.dbHost].any (·.state ≠ .missing)
        wpConfigParsed := parsed
        wpDbName := if parsed then inspection.dbName.value else manifest.wpDbName
        wpDbUser := if present inspection.dbUser then inspection.dbUser.value else manifest.wpDbUser
        wpDbHost := if present inspection.dbHost then inspection.dbHost.value else manifest.wpDbHost
        wpDbAmbiguous := inspection.status = .ambiguous ||
          (inspection.dbName.source ≠ .missing && inspection.dbName.source ≠ .directConstant) }

/-! ## The marker -/

/-- What is wrong with a marker; nothing where it is this site's. -/
def identityError (reads : Reads) (opts : Options) (marker : MigrationMarker) : Bytes :=
  match reads.site with
  | none => bytes "SiteRecord not found for domain"
  | some id =>
      if marker.siteId = 0 then bytes "Marker has no site_id"
      else if marker.siteId ≠ id then
        bytes "Marker site_id " ++ decimal marker.siteId.toNat ++ bytes " != SiteRecord id " ++ decimal id.toNat
      else if marker.domain ≠ opts.domain then bytes "Marker domain mismatch"
      else if marker.owner ≠ opts.owner then bytes "Marker owner mismatch"
      else if reads.domainRecord.any (· ≠ id) then bytes "DomainRecord site_id mismatch"
      else []

/-- What a site can go on with, by the stage of its marker. -/
def withStage (manifest : Manifest) : Manifest :=
  if manifest.migrationStage = 1 then
    { manifest with canImportFiles := manifest.canImportFiles || (manifest.filesPending && !manifest.filesImported) }
  else if manifest.migrationStage = 2 then
    { manifest with
      canImportSql := manifest.canImportSql || (manifest.sqlPending && manifest.filesImported && !manifest.filesPending) }
  else if manifest.migrationStage = 3 then { manifest with migrationCompleted := true }
  else { manifest with markerError := bytes "Unknown migration stage: " ++ decimal manifest.migrationStage.toNat }

def withMarker (reads : Reads) (opts : Options) (manifest : Manifest) : Manifest :=
  let known := reads.site.isSome || reads.domainRecord.isSome || reads.siteDirectory
  let manifest := { manifest with siteExists := known }
  match known, reads.marker with
  | true, some content =>
      let marker := MigrationMarker.parse content
      let read :=
        { manifest with
          migrationMarkerFound := true
          migrationStage := marker.stage
          migrationSiteId := marker.siteId
          migrationOwner := marker.owner
          filesPending := marker.filesPending
          filesImported := marker.filesImported
          sqlPending := marker.sqlPending
          filesStatus :=
            if marker.filesImported then bytes "imported" else if marker.filesPending then bytes "pending" else bytes "unknown"
          sqlStatus := if marker.sqlPending then bytes "pending" else bytes "imported" }
      let error := identityError reads opts marker
      if error = [] then withStage read else { read with markerError := error }
  | _, _ => manifest

/-! ## The database -/

/-- The name that the lookup starts with. -/
def dbToFind (opts : Options) (manifest : Manifest) : Bytes :=
  if opts.database = [] && manifest.wpConfigParsed && !manifest.wpDbAmbiguous then normalizeDbName manifest.wpDbName
  else opts.database

def shouldSearchDb (opts : Options) (manifest : Manifest) : Bool :=
  (manifest.wpConfigFound || manifest.wpConfigParsed || opts.database ≠ []) && !opts.skipDb

/-- The directories below `db/`. -/
def listedDatabase (entry : Bytes) : Option Bytes :=
  if entry.take 5 = bytes "./db/" then (cutAt slash (entry.drop 5)).map Prod.fst
  else if entry.take 3 = bytes "db/" then (cutAt slash (entry.drop 3)).map Prod.fst
  else none

def allDatabases (entries : List Bytes) : List Bytes :=
  (entries.filterMap listedDatabase).foldl (fun found name => if name ∈ found then found else found ++ [name]) []

/-- The dump that the lookup finds: for the name that it starts with, else for the name in
the configuration. -/
def inspectedDump (entries : List Bytes) (opts : Options) (manifest : Manifest) : Option (Bytes × Bytes) :=
  let name := dbToFind opts manifest
  if name = [] then none
  else
    (findDbInArchive entries name).or
      (if manifest.wpConfigParsed && manifest.wpDbName ≠ [] then findDbInArchive entries manifest.wpDbName else none)

def withDatabase (entries : List Bytes) (opts : Options) (manifest : Manifest) : Manifest :=
  if shouldSearchDb opts manifest then
    let manifest := { manifest with allDatabases := allDatabases entries }
    match inspectedDump entries opts manifest with
    | some (path, type) => { manifest with dbDumpFound := true, dbDumpPath := path, dbType := type }
    | none =>
        { manifest with
          warnings := manifest.warnings ++
            [bytes "SQL dump not found for database '" ++ dbToFind opts manifest ++ bytes "'"] }
  else manifest

def withWarnings (manifest : Manifest) : Manifest :=
  let manifest :=
    if manifest.wpConfigFound && manifest.wpDbAmbiguous then
      { manifest with
        warnings := manifest.warnings ++
          [bytes "DB_NAME in wp-config.php uses a variable. Use --database to specify manually."] }
    else manifest
  if manifest.wpConfigFound && !manifest.wpConfigParsed && manifest.warnings = [] then
    { manifest with warnings := [bytes "wp-config.php found but DB_NAME could not be parsed"] }
  else manifest

/-! ## All of it -/

/-- `inspect`. -/
def inspect (reads : Reads) (opts : Options) : Manifest :=
  if reads.optionsError ≠ [] then { errors := [reads.optionsError] }
  else
    match tarSafeList reads.listing with
    | .error error => { errors := [bytes "Failed to read archive: " ++ error] }
    | .ok entries =>
        if !findDomainInArchive entries opts.domain then
          { errors := [bytes "Domain '" ++ opts.domain ++ bytes "' not found in backup archive"] }
        else
          let manifest : Manifest := { domainFound := true, webArchivePath := webArchive opts.domain }
          if !reads.staging then { manifest with errors := [bytes "Failed to create staging directory"] }
          else if reads.webRootType = [] then { manifest with errors := [bytes "Failed to extract web archive"] }
          else
            let manifest := { manifest with webRootType := reads.webRootType }
            if !reads.configStaging then { manifest with errors := [bytes "Failed to create staging directory"] }
            else
              withWarnings (withDatabase entries opts (withMarker reads opts (extractWpConfig reads.config manifest)))

end ContainerCP.Migration
