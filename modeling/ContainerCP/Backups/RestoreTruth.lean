import ContainerCP.Backups.BackupService

/-! What a restore leaves behind, set against what it says. -/
namespace ContainerCP.Backups

/-! ## What a backup does -/

section Create

variable {calls : CreateCalls} {siteId backupId : Nat} {backupType : Bytes} {world : World}

def archivePath (world : World) (domain : Bytes) (calls : CreateCalls) (backupType : Bytes) : Bytes :=
  joinPath world.backupDir (archiveName domain calls.nowSeconds backupType)

def tmpArchivePath (world : World) (domain : Bytes) (calls : CreateCalls) (backupType : Bytes) : Bytes :=
  joinPath world.backupDir (archiveName domain calls.nowSeconds backupType ++ bytes ".tmp")

/-- What a backup that succeeds has made: the archive, under the name that the record says,
and the record. -/
structure Created (calls : CreateCalls) (siteId : Nat) (backupType : Bytes) (backupId : Nat) (world world' : World)
    (site : Site) (database : Database) (archive : Archive) (record : Backup) (backups : BackupManager) : Prop where
  site_found : (world.sites.find fun site => site.id = siteId) = some site
  database_found : managedDatabaseForSite world.databases siteId = some database
  staged : copySiteTree calls.copy (fun _ => none) = (true, archive.tree)
  dump : archive.dump = world.tables database.id
  manifest : ∃ manifest, archive.manifest = some manifest ∧ manifest.schemaVersion = bytes "1" ∧ manifest.backupId = backupId
  id : record.id = backupId
  siteId : record.siteId = site.id
  filename : record.filename = archiveName site.domain calls.nowSeconds backupType
  filePath : record.filePath = archivePath world site.domain calls backupType
  inserted : world.backups.insert record = some backups
  world_eq : world' =
    { world with
      backups := backups
      archives := Function.update (Function.update world.archives (tmpArchivePath world site.domain calls backupType) none)
        record.filePath (some archive) }

/-- The record of a backup is found by its id, and the archive by the record. -/
theorem Created.found {world' : World} {site : Site} {database : Database} {archive : Archive} {record : Backup}
    {backups : BackupManager} (h : Created calls siteId backupType backupId world world' site database archive record backups) :
    (world'.backups.find fun backup => backup.id = backupId) = some record ∧ world'.archives record.filePath = some archive := by
  constructor
  · have hMem : record ∈ world'.backups.records := by
      rw [h.world_eq, Registry.records_insert h.inserted]
      exact List.mem_append_right _ (List.mem_singleton_self _)
    rw [← h.id]
    exact Registry.find_id hMem
  · rw [h.world_eq]
    exact Function.update_self ..

/-- What a backup that fails can leave of the archives. -/
inductive Uncreated (calls : CreateCalls) (backupType : Bytes) (backupId : Nat) (world : World) : World → Prop where
  | same : Uncreated calls backupType backupId world world
  | cleaned (site : Site) : Uncreated calls backupType backupId world
      { world with archives := Function.update world.archives (tmpArchivePath world site.domain calls backupType) none }
  | taken (archives : Bytes → Option Archive) (record : Backup) (hId : record.id = backupId)
      (hTaken : world.backups.insert record = none) :
      Uncreated calls backupType backupId world { world with archives := archives }

/-- All that a backup can come to. -/
theorem createSiteBackupInternal_cases (calls : CreateCalls) (siteId : Nat) (backupType : Bytes) (backupId : Nat) (world : World) :
    ((createSiteBackupInternal calls siteId backupType backupId world).1.success = false ∧
        Uncreated calls backupType backupId world (createSiteBackupInternal calls siteId backupType backupId world).2) ∨
      ((createSiteBackupInternal calls siteId backupType backupId world).1.success = true ∧
        ∃ site database archive record backups, Created calls siteId backupType backupId world
          (createSiteBackupInternal calls siteId backupType backupId world).2 site database archive record backups) := by
  rw [createSiteBackupInternal]
  split
  · exact Or.inl ⟨rfl, .same⟩
  next site hSite =>
  split
  · exact Or.inl ⟨rfl, .same⟩
  next database hDatabase =>
  split
  · exact Or.inl ⟨rfl, .same⟩
  split
  · exact Or.inl ⟨rfl, .cleaned site⟩
  next checksum =>
  split
  · exact Or.inl ⟨rfl, .cleaned site⟩
  next dumpSize =>
  split
  · exact Or.inl ⟨rfl, .cleaned site⟩
  split
  · exact Or.inl ⟨rfl, .cleaned site⟩
  split
  · exact Or.inl ⟨rfl, .cleaned site⟩
  split
  · exact Or.inl ⟨rfl, .cleaned site⟩
  next staged hStaged =>
  split
  · exact Or.inl ⟨rfl, .cleaned site⟩
  split
  · exact Or.inl ⟨rfl, .cleaned site⟩
  split
  · exact Or.inl ⟨rfl, .cleaned site⟩
  split
  · exact Or.inl ⟨rfl, .cleaned site⟩
  dsimp only
  split
  · next hInsert => exact Or.inl ⟨rfl, .taken _ _ rfl hInsert⟩
  next backups hInsert =>
  exact Or.inr ⟨rfl, site, database, ⟨some _, staged, world.tables database.id⟩, _, backups,
    ⟨hSite, hDatabase, hStaged, rfl, ⟨_, rfl, rfl, rfl⟩, rfl, rfl, rfl, rfl, hInsert, rfl⟩⟩

end Create

/-! ## The checks -/

section Checks

variable {calls : RestoreCalls} {backupId targetSiteId : Nat} {mode confirmation : Bytes} {world : World}

/-- A failure that asks for nothing by hand. -/
def Plain (result : BackupServiceResult) : Prop := result.success = false ∧ result.manualRecoveryRequired = false

theorem restorePlan_error {failed : BackupServiceResult}
    (h : restorePlan calls backupId targetSiteId mode confirmation world = .error failed) : Plain failed := by
  rw [restorePlan] at h
  split at h
  · cases h
    exact ⟨rfl, rfl⟩
  split at h
  · cases h
    exact ⟨rfl, rfl⟩
  dsimp only at h
  split at h
  · cases h
    exact ⟨rfl, rfl⟩
  split at h
  · cases h
    exact ⟨rfl, rfl⟩
  split at h
  · cases h
    exact ⟨rfl, rfl⟩
  split at h
  · cases h
    exact ⟨rfl, rfl⟩
  · cases h

/-- The plan is about a site of the manager and its one database. -/
theorem restorePlan_ok {plan : RestorePlan} (h : restorePlan calls backupId targetSiteId mode confirmation world = .ok plan) :
    plan.site ∈ world.sites.records ∧ plan.database = managedDatabaseForSite world.databases plan.site.id := by
  rw [restorePlan] at h
  split at h
  · cases h
  split at h
  · cases h
  next site hSite =>
  dsimp only at h
  split at h
  · cases h
  split at h
  · cases h
  split at h
  · cases h
  split at h
  · cases h
  · cases h
    exact ⟨List.mem_of_find?_eq_some hSite, rfl⟩

theorem extractPayload_error {plan : RestorePlan} {path : Bytes} {recoveryId : Nat} {failed : BackupServiceResult}
    (h : extractPayload calls plan mode path backupId recoveryId world = .error failed) : Plain failed := by
  rw [extractPayload] at h
  split at h
  · cases h
    exact ⟨rfl, rfl⟩
  split at h
  · cases h
    exact ⟨rfl, rfl⟩
  split at h
  · cases h
    exact ⟨rfl, rfl⟩
  · cases h

end Checks

/-! ## Sites -/

/-- The sites have the files and the databases that they had. -/
structure SameSites (before after : World) : Prop where
  files : ∀ domain path, fileContent (after.dirs domain path) = fileContent (before.dirs domain path)
  tables : ∀ id, after.tables id = before.tables id

/-- The sites are left alone, down to the last directory. -/
structure SameDirs (before after : World) : Prop where
  sites : after.sites = before.sites
  databases : after.databases = before.databases
  dirs : after.dirs = before.dirs
  tables : after.tables = before.tables

theorem SameDirs.sameSites {before after : World} (h : SameDirs before after) : SameSites before after :=
  ⟨fun domain path => by rw [h.dirs], fun id => by rw [h.tables]⟩

theorem createSiteBackupInternal_sameDirs (calls : CreateCalls) (siteId : Nat) (backupType : Bytes) (backupId : Nat)
    (world : World) : SameDirs world (createSiteBackupInternal calls siteId backupType backupId world).2 := by
  obtain ⟨-, hLeft⟩ | ⟨-, _, _, _, _, _, hCreated⟩ := createSiteBackupInternal_cases calls siteId backupType backupId
    world
  · generalize (createSiteBackupInternal calls siteId backupType backupId world).2 = left at hLeft
    cases hLeft <;> exact ⟨rfl, rfl, rfl, rfl⟩
  · rw [hCreated.world_eq]
    exact ⟨rfl, rfl, rfl, rfl⟩

/-! ## Up to the first write -/

section Prepare

variable {calls : RestoreCalls} {create : CreateCalls} {backupId targetSiteId : Nat} {mode confirmation : Bytes} {world : World}

/-- A restore that ends before its first write has changed no site and asks for nothing. -/
theorem prepareRestore_error {ended : BackupServiceResult × World}
    (h : prepareRestore calls create backupId targetSiteId mode confirmation world = .error ended) :
    Plain ended.1 ∧ SameDirs world ended.2 := by
  rw [prepareRestore] at h
  split at h
  · next hPlan =>
    obtain rfl := Except.error.inj h
    exact ⟨restorePlan_error hPlan, rfl, rfl, rfl, rfl⟩
  next plan hPlan =>
  have hSame := createSiteBackupInternal_sameDirs create plan.site.id preRestoreRecovery world.backups.nextId
    { world with backups := world.backups.reserve }
  dsimp only at h
  split at h
  · obtain rfl := Except.error.inj h
    exact ⟨⟨rfl, rfl⟩, hSame.sites, hSame.databases, hSame.dirs, hSame.tables⟩
  split at h
  · next hPayload =>
    obtain rfl := Except.error.inj h
    exact ⟨extractPayload_error hPayload, hSame.sites, hSame.databases, hSame.dirs, hSame.tables⟩
  · cases h

/-- A restore that starts to write has its recovery backup. -/
theorem prepareRestore_ok {prepared : Prepared}
    (h : prepareRestore calls create backupId targetSiteId mode confirmation world = .ok prepared) :
    SameDirs world prepared.world ∧ prepared.plan.site ∈ world.sites.records ∧ ∃ database archive record backups,
      prepared.plan.database = some database ∧
      Created create prepared.plan.site.id preRestoreRecovery prepared.recoveryId { world with backups := world.backups.reserve }
        prepared.world prepared.plan.site database archive record backups := by
  rw [prepareRestore] at h
  split at h
  · cases h
  next plan hPlan =>
  obtain ⟨hSite, hDatabase⟩ := restorePlan_ok hPlan
  have hSame := createSiteBackupInternal_sameDirs create plan.site.id preRestoreRecovery world.backups.nextId
    { world with backups := world.backups.reserve }
  dsimp only at h
  split at h
  · cases h
  next hMade =>
  split at h
  · cases h
  next payload hPayload =>
  obtain rfl := Except.ok.inj h
  refine ⟨⟨hSame.sites, hSame.databases, hSame.dirs, hSame.tables⟩, hSite, ?_⟩
  obtain ⟨hFailed, -⟩ | ⟨-, site, database, archive, record, backups, hCreated⟩ := createSiteBackupInternal_cases
    create plan.site.id preRestoreRecovery world.backups.nextId { world with backups := world.backups.reserve }
  · exact absurd hFailed (by simpa using hMade)
  · obtain rfl : plan.site = site := Option.some.inj ((Registry.find_id hSite).symm.trans hCreated.site_found)
    exact ⟨database, archive, record, backups, hDatabase.trans hCreated.database_found, hCreated⟩

end Prepare

/-! ## The recovery -/

/-- The calls of a recovery go well up to its first write, and the domain of the site is a
confirmation. -/
structure RecoveryReady (recovery : RestoreCalls) (site : Site) : Prop where
  manifestRead : recovery.manifestRead = true
  named : site.domain ≠ []
  specific : genericConfirmation site.domain = false
  stagingReady : recovery.stagingReady = true
  extracted : recovery.extracted = true
  payloadValid : recovery.payloadValid = true

section Recovery

variable (recovery : RestoreCalls) {recoveryId : Nat} {site : Site} {database : Database} {record : Backup} {archive : Archive}
  {manifest : BackupManifest} {world : World}

theorem full_facts : bytes "full" ≠ bytes "files_only" ∧ bytes "full" ≠ bytes "database_only" ∧
    filesMode (bytes "full") = true ∧ databaseMode (bytes "full") = true ∧ bytes "1" ≠ bytes "legacy_unknown" := by
  decide

/-- The checks of a recovery, in the full mode and with the domain as its confirmation. -/
theorem restorePlan_recovery (hRecord : (world.backups.find fun backup => backup.id = recoveryId) = some record)
    (hSiteId : record.siteId = site.id) (hArchive : world.archives record.filePath = some archive)
    (hManifest : archive.manifest = some manifest) (hSchema : manifest.schemaVersion = bytes "1")
    (hSite : (world.sites.find fun other => other.id = site.id) = some site)
    (hDatabase : managedDatabaseForSite world.databases site.id = some database) :
    if recovery.manifestRead = true ∧ site.domain ≠ [] ∧ genericConfirmation site.domain = false then
      restorePlan recovery recoveryId site.id (bytes "full") site.domain world = .ok ⟨record, site, some database⟩
    else ∃ failed, restorePlan recovery recoveryId site.id (bytes "full") site.domain world = .error failed := by
  obtain ⟨hFull, hFullOnly, -, hMode, hModern⟩ := full_facts
  have hTarget : (if site.id = 0 then record.siteId else site.id) = site.id := by
    rw [hSiteId, ite_self]
  have hConfirmed : confirmationValid site.domain site.domain database.dbName (decide (bytes "full" = bytes "database_only")) =
      (!decide (site.domain = []) && !genericConfirmation site.domain) := by
    rw [confirmationValid, decide_eq_false hFullOnly]
    cases hNamed : decide (site.domain = []) <;> cases genericConfirmation site.domain <;> simp_all
  rw [restorePlan, hRecord]
  dsimp only
  rw [hTarget, hSite]
  dsimp only
  rw [readManifest]
  cases hRead : recovery.manifestRead with
  | false =>
      rw [if_neg (by simp), if_neg Bool.false_ne_true, Option.getD_none, if_pos ⟨rfl, hFull⟩]
      exact ⟨_, rfl⟩
  | true =>
      have hNew : ¬(manifest.schemaVersion = bytes "legacy_unknown" ∧ bytes "full" ≠ bytes "files_only") := by
        rw [hSchema]
        exact fun h => hModern h.1
      rw [if_pos rfl, hArchive, Option.bind_some, hManifest, Option.getD_some, if_neg hNew, hDatabase, hMode]
      simp only [Option.map_some, Option.getD_some, hConfirmed, ne_eq, not_true_eq_false, decide_false, Bool.false_and,
        Bool.false_eq_true, if_false, Option.isNone_some, Bool.and_false, Bool.true_and, Bool.not_and, Bool.not_not]
      cases hNamed : decide (site.domain = []) <;> cases hSpecific : genericConfirmation site.domain <;> simp_all

/-- A recovery in the full mode either goes on to its writes or fails. -/
theorem restoreRecovery_full (hRecord : (world.backups.find fun backup => backup.id = recoveryId) = some record)
    (hSiteId : record.siteId = site.id) (hArchive : world.archives record.filePath = some archive)
    (hManifest : archive.manifest = some manifest) (hSchema : manifest.schemaVersion = bytes "1")
    (hSite : (world.sites.find fun other => other.id = site.id) = some site)
    (hDatabase : managedDatabaseForSite world.databases site.id = some database) :
    (RecoveryReady recovery site → restoreRecovery recovery recoveryId site.id (bytes "full") site.domain world =
        applyRestore recovery ⟨record, site, some database⟩ (bytes "full") recoveryId 0 archive (fun _ world => (false, world))
          world) ∧
      (¬RecoveryReady recovery site →
        (restoreRecovery recovery recoveryId site.id (bytes "full") site.domain world).1.success = false) := by
  have hPlan := restorePlan_recovery recovery hRecord hSiteId hArchive hManifest hSchema hSite hDatabase
  obtain ⟨-, -, -, hMode, -⟩ := full_facts
  rw [restoreRecovery]
  split at hPlan
  · next hChecks =>
    obtain ⟨hRead, hNamed, hSpecific⟩ := hChecks
    rw [hPlan]
    dsimp only
    rw [extractPayload, hArchive, hMode, Bool.true_and]
    cases hStaging : recovery.stagingReady with
    | false => exact ⟨fun hReady => by simp [hReady.stagingReady] at hStaging, fun _ => rfl⟩
    | true =>
        cases hExtracted : recovery.extracted with
        | false => exact ⟨fun hReady => by simp [hReady.extracted] at hExtracted, fun _ => rfl⟩
        | true =>
            cases hPayload : recovery.payloadValid with
            | false => exact ⟨fun hReady => by simp [hReady.payloadValid] at hPayload, fun _ => rfl⟩
            | true =>
                exact ⟨fun _ => rfl, fun hNot => absurd ⟨hRead, hNamed, hSpecific, hStaging, hExtracted, hPayload⟩ hNot⟩
  · next hChecks =>
    obtain ⟨failed, hFailed⟩ := hPlan
    rw [hFailed]
    refine ⟨fun hReady => absurd ⟨hReady.manifestRead, hReady.named, hReady.specific⟩ hChecks, fun _ => ?_⟩
    exact (restorePlan_error hFailed).1

end Recovery

/-! ## Files -/

theorem fileContent_eq_some {entry : Option Entry} {content : Bytes} :
    fileContent entry = some content ↔ entry = some (.file content) := by
  cases entry with
  | none => simp [fileContent]
  | some entry => cases entry <;> simp [fileContent]

theorem fileContent_of_fits {old : Option Entry} (h : fits old .directory = true) : fileContent old = none := by
  cases old with
  | none => rfl
  | some entry => cases entry <;> first | rfl | cases h

/-- Files that are laid back over a copy leave the files that there were exactly where the
copy brought no other file outside of them. -/
theorem laidBack_iff {back source base : Tree} {keys : List Bytes} (hBack : Within back base)
    (hFits : ∀ path ∈ keys, ∀ entry, source path = some entry → fits (base path) entry = true) :
    (∀ path, fileContent (overlay back (overlay (restrict keys source) base) path) = fileContent (base path)) ↔
      ∀ path content, source path = some (.file content) → path ∈ keys → back path = none →
        base path = some (.file content) := by
  constructor
  · intro h path content hSource hMem hNone
    have hUpper := (restrict_of_mem hMem : restrict keys source path = source path).trans hSource
    exact fileContent_eq_some.mp (((overlay_back_iff fileContent hBack).mp (h path) hNone _ hUpper).symm)
  · intro h path
    rw [overlay_back_iff fileContent hBack]
    intro hNone entry hUpper
    by_cases hMem : path ∈ keys
    · rw [restrict_of_mem hMem] at hUpper
      cases entry with
      | file content => rw [h path content hUpper hMem hNone]
      | directory => exact (fileContent_of_fits (hFits path hMem _ hUpper)).symm
      | special =>
          have hSpecial := hFits path hMem _ hUpper
          cases hBase : base path <;> simp [fits] at hSpecial
    · rw [restrict_of_notMem hMem] at hUpper
      cases hUpper

/-- A copy brings all files of its source exactly where those it does not come to are there
already. -/
theorem laid_iff {source base : Tree} {keys : List Bytes} :
    (∀ path content, source path = some (.file content) →
        overlay (restrict keys source) base path = some (.file content)) ↔
      ∀ path content, source path = some (.file content) → path ∉ keys → base path = some (.file content) := by
  refine forall₂_congr fun path content => forall_congr' fun hSource => ?_
  by_cases hMem : path ∈ keys
  · rw [overlay_of_some ((restrict_of_mem hMem).trans hSource)]
    exact iff_of_true rfl fun hNot => absurd hMem hNot
  · rw [overlay_of_none (restrict_of_notMem hMem)]
    exact ⟨fun h _ => h, fun h => h hMem⟩

/-! ## Writes -/

/-- What the copy of a restore does to the directory of the site. -/
def laid (calls : RestoreCalls) (mode : Bytes) (tree : Tree) : Bool × Tree :=
  if filesMode mode then copySiteTree calls.copy tree else (true, tree)

/-- What a restore has written when the import has ended. -/
def written (calls : RestoreCalls) (plan : RestorePlan) (mode : Bytes) (payload : Archive) (tree : Tree) (world : World) : World :=
  let filesWorld := { world with dirs := Function.update world.dirs plan.site.domain tree }
  if databaseMode mode then importDump calls.imported payload.dump plan.database filesWorld else filesWorld

theorem written_dirs (calls : RestoreCalls) (plan : RestorePlan) (mode : Bytes) (payload : Archive) (tree : Tree) (world : World) :
    (written calls plan mode payload tree world).dirs = Function.update world.dirs plan.site.domain tree := by
  rw [written]
  split
  · cases hDatabase : plan.database <;> simp only [importDump]
  · rfl

theorem written_tables {calls : RestoreCalls} {plan : RestorePlan} {mode : Bytes} (hMode : databaseMode mode = true)
    {database : Database} (hDatabase : plan.database = some database) (payload : Archive) (tree : Tree) (world : World) :
    (written calls plan mode payload tree world).tables =
      Function.update world.tables database.id (calls.imported.tables payload.dump (world.tables database.id)) := by
  simp only [written, hMode, if_true, importDump, hDatabase]

/-- A restore writes neither to the managers nor to the archives. -/
theorem written_rest (calls : RestoreCalls) (plan : RestorePlan) (mode : Bytes) (payload : Archive) (tree : Tree) (world : World) :
    (written calls plan mode payload tree world).sites = world.sites ∧
      (written calls plan mode payload tree world).databases = world.databases ∧
      (written calls plan mode payload tree world).backups = world.backups ∧
      (written calls plan mode payload tree world).archives = world.archives := by
  rw [written]
  split
  · cases hDatabase : plan.database <;> exact ⟨rfl, rfl, rfl, rfl⟩
  · exact ⟨rfl, rfl, rfl, rfl⟩

theorem ImportOutcome.eq_done {outcome : ImportOutcome} (h : outcome.failure = none) : outcome = .done := by
  cases outcome <;> first | rfl | cases h

section Apply

variable {calls : RestoreCalls} (plan : RestorePlan) {mode : Bytes} (backupId recoveryId : Nat) (payload : Archive)
  (recover : Bytes → World → Bool × World) {world : World} {tree : Tree}

theorem applyRestore_refused (h : (laid calls mode (world.dirs plan.site.domain)).1 = false) :
    (applyRestore calls plan mode backupId recoveryId payload recover world).1.success = false ∧
      (applyRestore calls plan mode backupId recoveryId payload recover world).1.manualRecoveryRequired = true := by
  rw [applyRestore]
  rw [laid] at h
  simp only [h, Bool.not_false, if_true]
  exact ⟨rfl, rfl⟩

theorem applyRestore_done (h : laid calls mode (world.dirs plan.site.domain) = (true, tree))
    (hImport : databaseMode mode = true → calls.imported.failure = none) :
    (applyRestore calls plan mode backupId recoveryId payload recover world).1.success = true ∧
      (applyRestore calls plan mode backupId recoveryId payload recover world).2 = written calls plan mode payload tree world := by
  have hNone : (if databaseMode mode then calls.imported.failure else none) = none := by
    split
    · next hMode => exact hImport hMode
    · rfl
  rw [applyRestore]
  rw [laid] at h
  simp only [h, Bool.not_true, Bool.false_eq_true, if_false, hNone]
  exact ⟨rfl, rfl⟩

theorem applyRestore_failed (h : laid calls mode (world.dirs plan.site.domain) = (true, tree)) (hMode : databaseMode mode = true)
    {message : Bytes} (hImport : calls.imported.failure = some message) :
    (applyRestore calls plan mode backupId recoveryId payload recover world).1.success = false ∧
      (applyRestore calls plan mode backupId recoveryId payload recover world).1.manualRecoveryRequired =
        !(recover (bytes "full") (written calls plan mode payload tree world)).1 ∧
      (applyRestore calls plan mode backupId recoveryId payload recover world).2 =
        (recover (bytes "full") (written calls plan mode payload tree world)).2 := by
  rw [applyRestore]
  rw [laid] at h
  simp only [h, Bool.not_true, Bool.false_eq_true, if_false, hMode, if_true, hImport, written]
  exact ⟨rfl, rfl, trivial⟩

end Apply

/-! ## What a restore says -/

/-- All that the archive has for the mode is in place. -/
structure Applied (prepared : Prepared) (mode : Bytes) (after : World) : Prop where
  files : filesMode mode = true → ∀ path content, prepared.payload.tree path = some (.file content) →
    after.dirs prepared.plan.site.domain path = some (.file content)
  tables : databaseMode mode = true → ∀ database, prepared.plan.database = some database →
    ∀ table content, prepared.payload.dump table = some content → after.tables database.id table = some content

/-- Where a restore fails and asks for nothing by hand, the sites are as before, and where
it succeeds, all of the archive is in place. -/
structure Truthful (before : World) (prepared : Except (BackupServiceResult × World) Prepared) (mode : Bytes)
    (run : BackupServiceResult × World) : Prop where
  unchanged : run.1.success = false → run.1.manualRecoveryRequired = false → SameSites before run.2
  applied : run.1.success = true → ∃ prepared', prepared = .ok prepared' ∧ Applied prepared' mode run.2

/-- The recovery goes through, over a tree. -/
structure Recovers (recovery : RestoreCalls) (site : Site) (tree : Tree) : Prop where
  ready : RecoveryReady recovery site
  copied : (copySiteTree recovery.copy tree).1 = true
  imported : recovery.imported.failure = none

/-- The iterations show the directories that they go through: that of the archive, that of
the site, and that of the recovery backup. -/
structure Iterates (calls : RestoreCalls) (create : CreateCalls) (recovery : RestoreCalls) (before : World)
    (prepared : Prepared) : Prop where
  payload : calls.copy.Shows prepared.payload.tree
  site : create.copy.Shows (before.dirs prepared.plan.site.domain)
  recovery : ∀ record archive, (prepared.world.backups.find fun backup => backup.id = prepared.recoveryId) = some record →
    prepared.world.archives record.filePath = some archive → recovery.copy.Shows archive.tree

/-- What keeps a restore truthful. -/
structure Sound (calls recovery : RestoreCalls) (mode : Bytes) (before : World) (prepared : Prepared) : Prop where
  /-- Where it succeeds, the copy came to all files that were not there already. -/
  complete : (laid calls mode (before.dirs prepared.plan.site.domain)).1 = true →
    (databaseMode mode = true → calls.imported.failure = none) → filesMode mode = true →
    ∀ path content, prepared.payload.tree path = some (.file content) → path ∉ calls.copy.reached →
      before.dirs prepared.plan.site.domain path = some (.file content)
  /-- Where it fails and the recovery goes through, the copy changed no file that the
  recovery does not come to. -/
  files : (laid calls mode (before.dirs prepared.plan.site.domain)).1 = true → databaseMode mode = true →
    calls.imported.failure ≠ none →
    Recovers recovery prepared.plan.site (laid calls mode (before.dirs prepared.plan.site.domain)).2 → filesMode mode = true →
    ∀ path content, prepared.payload.tree path = some (.file content) → path ∈ calls.copy.reached →
      path ∉ recovery.copy.reached → before.dirs prepared.plan.site.domain path = some (.file content)
  /-- There, too, the import added no table. -/
  tables : (laid calls mode (before.dirs prepared.plan.site.domain)).1 = true → databaseMode mode = true →
    calls.imported.failure ≠ none →
    Recovers recovery prepared.plan.site (laid calls mode (before.dirs prepared.plan.site.domain)).2 →
    ∀ database, prepared.plan.database = some database → ∀ table, before.tables database.id table = none →
      calls.imported.tables prepared.payload.dump (before.tables database.id) table = none

section Truth

variable {calls recovery : RestoreCalls} {create : CreateCalls} {backupId targetSiteId : Nat} {mode confirmation : Bytes}
  {before : World} {prepared : Prepared} {tree : Tree}

/-- A restore that succeeds has all in place exactly where its copy came to all that was
not. -/
theorem applied_iff (hShows : calls.copy.Shows prepared.payload.tree)
    (hLaid : laid calls mode (before.dirs prepared.plan.site.domain) = (true, tree))
    (hImport : databaseMode mode = true → calls.imported.failure = none) :
    Applied prepared mode (written calls prepared.plan mode prepared.payload tree prepared.world) ↔
      (filesMode mode = true → ∀ path content, prepared.payload.tree path = some (.file content) →
        path ∉ calls.copy.reached → before.dirs prepared.plan.site.domain path = some (.file content)) := by
  have hFiles : filesMode mode = true →
      tree = overlay (restrict calls.copy.reached prepared.payload.tree) (before.dirs prepared.plan.site.domain) := by
    intro hMode
    rw [laid, if_pos hMode] at hLaid
    exact (copySiteTree_ok hShows hLaid).1
  constructor
  · intro h hMode
    have hApplied := h.files hMode
    rw [written_dirs, Function.update_self, hFiles hMode] at hApplied
    exact laid_iff.mp hApplied
  · intro h
    refine ⟨?_, ?_⟩
    · intro hMode
      rw [written_dirs, Function.update_self, hFiles hMode]
      exact laid_iff.mpr (h hMode)
    · intro hMode database hDatabase table content hDump
      rw [written_tables hMode hDatabase, Function.update_self, ImportOutcome.eq_done (hImport hMode)]
      exact overlay_of_some hDump

variable {database : Database} {archive : Archive} {record : Backup} {backups : BackupManager}

/-- How a recovery ends, behind a restore whose import failed. -/
theorem recovery_run (recovery : RestoreCalls) (hSame : SameDirs before prepared.world) (hSite : prepared.plan.site ∈ before.sites.records)
    (hCreated : Created create prepared.plan.site.id preRestoreRecovery prepared.recoveryId
      { before with backups := before.backups.reserve } prepared.world prepared.plan.site database archive record backups)
    {w : World} (hRest : w.sites = prepared.world.sites ∧ w.databases = prepared.world.databases ∧
      w.backups = prepared.world.backups ∧ w.archives = prepared.world.archives)
    (hTree : w.dirs prepared.plan.site.domain = tree) :
    ((restoreRecovery recovery prepared.recoveryId prepared.plan.site.id (bytes "full") prepared.plan.site.domain w).1.success =
        true ↔ Recovers recovery prepared.plan.site tree) ∧
      (Recovers recovery prepared.plan.site tree →
        (restoreRecovery recovery prepared.recoveryId prepared.plan.site.id (bytes "full") prepared.plan.site.domain w).2 =
          written recovery ⟨record, prepared.plan.site, some database⟩ (bytes "full") archive
            (copySiteTree recovery.copy tree).2 w) := by
  obtain ⟨hSites, hDatabases, hBackups, hArchives⟩ := hRest
  obtain ⟨-, -, hFilesMode, hFullMode, -⟩ := full_facts
  obtain ⟨manifest, hManifest, hSchema, -⟩ := hCreated.manifest
  obtain ⟨hRecord, hArchive⟩ := hCreated.found
  rw [← hBackups] at hRecord
  rw [← hArchives] at hArchive
  have hFound : (w.sites.find fun other => other.id = prepared.plan.site.id) = some prepared.plan.site := by
    rw [hSites, hSame.sites]
    exact Registry.find_id hSite
  have hManaged : managedDatabaseForSite w.databases prepared.plan.site.id = some database := by
    rw [hDatabases, hSame.databases]
    exact hCreated.database_found
  obtain ⟨hReadyRun, hNotReady⟩ := restoreRecovery_full recovery hRecord hCreated.siteId hArchive hManifest hSchema
    hFound hManaged
  by_cases hReady : RecoveryReady recovery prepared.plan.site
  · rw [hReadyRun hReady]
    cases hCopy : copySiteTree recovery.copy tree with
    | mk copied tree' =>
        have hLaid : laid recovery (bytes "full") (w.dirs prepared.plan.site.domain) = (copied, tree') := by
          rw [laid, if_pos hFilesMode, hTree, hCopy]
        cases copied with
        | false =>
            have hRefused := applyRestore_refused ⟨record, prepared.plan.site, some database⟩ prepared.recoveryId 0 archive
              (fun _ world => (false, world)) (congrArg Prod.fst hLaid)
            have hNot : ¬Recovers recovery prepared.plan.site tree := by
              intro h
              have hCopied := h.copied
              rw [hCopy] at hCopied
              cases hCopied
            rw [hRefused.1]
            exact ⟨iff_of_false Bool.false_ne_true hNot, fun h => absurd h hNot⟩
        | true =>
            cases hImport : recovery.imported.failure with
            | none =>
                obtain ⟨hSuccess, hWorld⟩ := applyRestore_done ⟨record, prepared.plan.site, some database⟩ prepared.recoveryId 0
                  archive (fun _ world => (false, world)) hLaid fun _ => hImport
                rw [hSuccess, hWorld]
                exact ⟨iff_of_true rfl ⟨hReady, congrArg Prod.fst hCopy, hImport⟩, fun _ => rfl⟩
            | some message =>
                have hFailed := applyRestore_failed ⟨record, prepared.plan.site, some database⟩ prepared.recoveryId 0 archive
                  (fun _ world => (false, world)) hLaid hFullMode hImport
                have hNot : ¬Recovers recovery prepared.plan.site tree := by
                  intro h
                  have hImported := h.imported
                  rw [hImport] at hImported
                  cases hImported
                rw [hFailed.1]
                exact ⟨iff_of_false Bool.false_ne_true hNot, fun h => absurd h hNot⟩
  · have hNot : ¬Recovers recovery prepared.plan.site tree := fun h => hReady h.ready
    rw [hNotReady hReady]
    exact ⟨iff_of_false Bool.false_ne_true hNot, fun h => absurd h hNot⟩

/-- What a restore and its recovery together leave of the sites. -/
theorem recovered_sameSites_iff (hSame : SameDirs before prepared.world) (hDatabase : prepared.plan.database = some database)
    (hCreated : Created create prepared.plan.site.id preRestoreRecovery prepared.recoveryId
      { before with backups := before.backups.reserve } prepared.world prepared.plan.site database archive record backups)
    (hShows : calls.copy.Shows prepared.payload.tree) (hSite : create.copy.Shows (before.dirs prepared.plan.site.domain))
    (hStaged : recovery.copy.Shows archive.tree)
    (hLaid : laid calls mode (before.dirs prepared.plan.site.domain) = (true, tree)) (hMode : databaseMode mode = true)
    (hRecovers : Recovers recovery prepared.plan.site tree) :
    SameSites before (written recovery ⟨record, prepared.plan.site, some database⟩ (bytes "full") archive
        (copySiteTree recovery.copy tree).2 (written calls prepared.plan mode prepared.payload tree prepared.world)) ↔
      (filesMode mode = true → ∀ path content, prepared.payload.tree path = some (.file content) → path ∈ calls.copy.reached →
          path ∉ recovery.copy.reached → before.dirs prepared.plan.site.domain path = some (.file content)) ∧
        ∀ table, before.tables database.id table = none →
          calls.imported.tables prepared.payload.dump (before.tables database.id) table = none := by
  obtain ⟨-, -, -, hFullMode, -⟩ := full_facts
  have hBack : Within (restrict recovery.copy.reached archive.tree) (before.dirs prepared.plan.site.domain) := by
    refine Within.restrict ?_ _
    rw [(copySiteTree_ok hSite hCreated.staged).1]
    exact ((within_refl _).restrict _).overlay (within_none _)
  have hNone : ∀ path, restrict recovery.copy.reached archive.tree path = none ↔ path ∉ recovery.copy.reached := by
    intro path
    by_cases hMem : path ∈ recovery.copy.reached
    · rw [restrict_of_mem hMem]
      exact iff_of_false (hStaged.reached hMem) (not_not.mpr hMem)
    · exact iff_of_true (restrict_of_notMem hMem) hMem
  have hCopy : (copySiteTree recovery.copy tree).2 = overlay (restrict recovery.copy.reached archive.tree) tree :=
    (copySiteTree_ok hStaged (Prod.ext hRecovers.copied rfl)).1
  have hFiles : (∀ path, fileContent ((copySiteTree recovery.copy tree).2 path) =
        fileContent (before.dirs prepared.plan.site.domain path)) ↔
      (filesMode mode = true → ∀ path content, prepared.payload.tree path = some (.file content) → path ∈ calls.copy.reached →
        path ∉ recovery.copy.reached → before.dirs prepared.plan.site.domain path = some (.file content)) := by
    rw [hCopy]
    cases hFilesMode : filesMode mode with
    | false =>
        rw [laid, hFilesMode] at hLaid
        obtain ⟨-, rfl⟩ := Prod.mk.inj hLaid
        exact iff_of_true (fun path => by rw [overlay_within hBack]) fun hTrue => by cases hTrue
    | true =>
        rw [laid, hFilesMode, if_pos rfl] at hLaid
        obtain ⟨rfl, hFits⟩ := copySiteTree_ok hShows hLaid
        rw [laidBack_iff hBack hFits]
        simp only [hNone, forall_const]
  have hTables : overlay (before.tables database.id)
        (calls.imported.tables prepared.payload.dump (before.tables database.id)) = before.tables database.id ↔
      ∀ table, before.tables database.id table = none →
        calls.imported.tables prepared.payload.dump (before.tables database.id) table = none := overlay_eq_left_iff
  rw [← hFiles, ← hTables]
  have hDirs : (written recovery ⟨record, prepared.plan.site, some database⟩ (bytes "full") archive
      (copySiteTree recovery.copy tree).2 (written calls prepared.plan mode prepared.payload tree prepared.world)).dirs =
        Function.update before.dirs prepared.plan.site.domain (copySiteTree recovery.copy tree).2 := by
    rw [written_dirs, written_dirs, Function.update_idem, hSame.dirs]
  have hAfter : (written recovery ⟨record, prepared.plan.site, some database⟩ (bytes "full") archive
      (copySiteTree recovery.copy tree).2 (written calls prepared.plan mode prepared.payload tree prepared.world)).tables =
        Function.update before.tables database.id (overlay (before.tables database.id)
          (calls.imported.tables prepared.payload.dump (before.tables database.id))) := by
    rw [written_tables hFullMode rfl, written_tables hMode hDatabase, Function.update_idem, Function.update_self, hSame.tables,
      ImportOutcome.eq_done hRecovers.imported, hCreated.dump]
    rfl
  constructor
  · intro h
    refine ⟨fun path => ?_, ?_⟩
    · have hPath := h.files prepared.plan.site.domain path
      rwa [hDirs, Function.update_self] at hPath
    · have hId := h.tables database.id
      rwa [hAfter, Function.update_self] at hId
  · rintro ⟨hPaths, hId⟩
    refine ⟨?_, ?_⟩
    · intro domain path
      rw [hDirs]
      by_cases hDomain : domain = prepared.plan.site.domain
      · rw [hDomain, Function.update_self]
        exact hPaths path
      · rw [Function.update_of_ne hDomain]
    · intro id
      rw [hAfter]
      by_cases hOther : id = database.id
      · rw [hOther, Function.update_self]
        exact hId
      · rw [Function.update_of_ne hOther]

/-- The recovery that a restore starts. -/
def recoverWith (recovery : RestoreCalls) (prepared : Prepared) (mode : Bytes) (world : World) : Bool × World :=
  let (result, world) := restoreRecovery recovery prepared.recoveryId prepared.plan.site.id mode prepared.plan.site.domain world
  (result.success, world)

/-- The part of a restore that writes says the truth exactly where what keeps it truthful is
given. -/
theorem applyRestore_truthful_iff (hSame : SameDirs before prepared.world) (hSite : prepared.plan.site ∈ before.sites.records)
    (hDatabase : prepared.plan.database = some database)
    (hCreated : Created create prepared.plan.site.id preRestoreRecovery prepared.recoveryId
      { before with backups := before.backups.reserve } prepared.world prepared.plan.site database archive record backups)
    (hShows : Iterates calls create recovery before prepared) (mode : Bytes) (backupId : Nat) :
    Truthful before (.ok prepared) mode (applyRestore calls prepared.plan mode backupId prepared.recoveryId prepared.payload
        (recoverWith recovery prepared) prepared.world) ↔ Sound calls recovery mode before prepared := by
  have hStaged := hShows.recovery record archive hCreated.found.1 hCreated.found.2
  have hDirs : prepared.world.dirs prepared.plan.site.domain = before.dirs prepared.plan.site.domain := by
    rw [hSame.dirs]
  cases hLaid : laid calls mode (before.dirs prepared.plan.site.domain) with
  | mk copied tree =>
      have hLaid' := hLaid
      rw [← hDirs] at hLaid'
      cases copied with
      | false =>
          obtain ⟨hFailed, hManual⟩ := applyRestore_refused prepared.plan backupId prepared.recoveryId prepared.payload
            (recoverWith recovery prepared) (congrArg Prod.fst hLaid')
          refine iff_of_true ⟨fun _ hPlain => ?_, fun hSuccess => ?_⟩ ⟨?_, ?_, ?_⟩
          · rw [hManual] at hPlain
            cases hPlain
          · rw [hFailed] at hSuccess
            cases hSuccess
          all_goals
            intro hCopied
            rw [hLaid] at hCopied
            cases hCopied
      | true =>
          by_cases hImport : databaseMode mode = true → calls.imported.failure = none
          · obtain ⟨hSuccess, hWorld⟩ := applyRestore_done prepared.plan backupId prepared.recoveryId prepared.payload
              (recoverWith recovery prepared) hLaid' hImport
            have hApplied := applied_iff hShows.payload hLaid hImport
            constructor
            · intro h
              obtain ⟨prepared', hPrepared, hAll⟩ := h.applied hSuccess
              obtain rfl := Except.ok.inj hPrepared
              rw [hWorld, hApplied] at hAll
              exact ⟨fun _ _ => hAll, fun _ hMode hNot => absurd (hImport hMode) hNot,
                fun _ hMode hNot => absurd (hImport hMode) hNot⟩
            · intro h
              refine ⟨fun hFailed => ?_, fun _ => ⟨prepared, rfl, ?_⟩⟩
              · rw [hSuccess] at hFailed
                cases hFailed
              · rw [hWorld, hApplied]
                exact h.complete (congrArg Prod.fst hLaid) hImport
          · push Not at hImport
            obtain ⟨hMode, hFailure⟩ := hImport
            obtain ⟨message, hMessage⟩ := Option.ne_none_iff_exists'.mp hFailure
            obtain ⟨hFailed, hManual, hWorld⟩ := applyRestore_failed prepared.plan backupId prepared.recoveryId prepared.payload
              (recoverWith recovery prepared) hLaid' hMode hMessage
            have hTree : (written calls prepared.plan mode prepared.payload tree prepared.world).dirs prepared.plan.site.domain =
                tree := by
              rw [written_dirs, Function.update_self]
            obtain ⟨hRecovered, hAfter⟩ := recovery_run recovery hSame hSite hCreated
              (written_rest calls prepared.plan mode prepared.payload tree prepared.world) hTree
            have hComplete : ¬(databaseMode mode = true → calls.imported.failure = none) := fun h => hFailure (h hMode)
            by_cases hRecovers : Recovers recovery prepared.plan.site tree
            · have hSameSites := recovered_sameSites_iff hSame hDatabase hCreated hShows.payload hShows.site hStaged hLaid hMode
                hRecovers
              have hPlain : (applyRestore calls prepared.plan mode backupId prepared.recoveryId prepared.payload
                  (recoverWith recovery prepared) prepared.world).1.manualRecoveryRequired = false := by
                rw [hManual, Bool.not_eq_false']
                exact hRecovered.mpr hRecovers
              constructor
              · intro h
                have hUnchanged := h.unchanged hFailed hPlain
                rw [hWorld] at hUnchanged
                obtain ⟨hFiles, hTables⟩ := hSameSites.mp (hAfter hRecovers ▸ hUnchanged)
                refine ⟨fun _ h => absurd h hComplete, fun _ _ _ _ => hFiles, ?_⟩
                intro _ _ _ _ database' hDatabase'
                obtain rfl := Option.some.inj (hDatabase.symm.trans hDatabase')
                exact hTables
              · intro h
                refine ⟨fun _ _ => ?_, fun hSuccess => ?_⟩
                · have hLaidTrue := congrArg Prod.fst hLaid
                  have hLaidTree : Recovers recovery prepared.plan.site
                      (laid calls mode (before.dirs prepared.plan.site.domain)).2 := by
                    rw [hLaid]
                    exact hRecovers
                  rw [hWorld]
                  have hBoth := hSameSites.mpr ⟨h.files hLaidTrue hMode hFailure hLaidTree,
                    h.tables hLaidTrue hMode hFailure hLaidTree database hDatabase⟩
                  rw [← hAfter hRecovers] at hBoth
                  exact hBoth
                · rw [hFailed] at hSuccess
                  cases hSuccess
            · have hManualTrue : (applyRestore calls prepared.plan mode backupId prepared.recoveryId prepared.payload
                  (recoverWith recovery prepared) prepared.world).1.manualRecoveryRequired = true := by
                rw [hManual, Bool.not_eq_true', ← Bool.not_eq_true]
                exact fun hTrue => hRecovers (hRecovered.mp hTrue)
              have hNot : ¬Recovers recovery prepared.plan.site
                  (laid calls mode (before.dirs prepared.plan.site.domain)).2 := by
                rw [hLaid]
                exact hRecovers
              refine iff_of_true ⟨fun _ hPlain => ?_, fun hSuccess => ?_⟩
                ⟨fun _ h => absurd h hComplete, fun _ _ _ h => absurd h hNot, fun _ _ _ h => absurd h hNot⟩
              · rw [hManualTrue] at hPlain
                cases hPlain
              · rw [hFailed] at hSuccess
                cases hSuccess

end Truth

section Sample

def soleRecord {Record : Type} (id : Record → Nat) (record : Record) (h : id record = 1) : Registry Record id where
  records := [record]
  nextId := 2
  nodup := List.nodup_singleton _
  below := List.forall_mem_singleton.mpr (h ▸ Nat.lt_succ_self 1)
  positive := Nat.succ_pos 1

def blog : Site := ⟨1, bytes "a.org"⟩

def blogDatabase : Database := ⟨1, 1, true, bytes "mariadb", bytes "a_org_db", bytes "secret"⟩

def oldBackup : Backup := ⟨1, 1, bytes "old.tar.gz", bytes "manual", 1, [], bytes "/backups/old.tar.gz"⟩

/-- A file of the backup that the site no longer has. -/
def oldFile : Visit := ⟨bytes "old.php", .file (bytes "old"), .done, true⟩

def newFile : Visit := ⟨bytes "new.php", .file (bytes "new"), .done, true⟩

/-- A tree of the one file that an iteration shows. -/
def treeOf (visit : Visit) : Tree := Function.update (fun _ => none) visit.path (some visit.entry)

def oldArchive : Archive := ⟨some { siteId := 1, siteDomain := bytes "a.org" }, treeOf oldFile, fun _ => none⟩

def blogWorld : World where
  sites := soleRecord Site.id blog rfl
  databases := soleRecord Database.id blogDatabase rfl
  backups := soleRecord Backup.id oldBackup rfl
  backupDir := bytes "/backups"
  archives := Function.update (fun _ => none) oldBackup.filePath (some oldArchive)
  dirs := fun _ => treeOf newFile
  tables := fun _ _ => none

def smoothCreate : CreateCalls where
  nowSeconds := 0
  createdSeconds := 0
  stagingReady := true
  exported := .ok (bytes "checksum")
  dumpSize := some 1
  metadataWritten := true
  manifestWritten := true
  copy := ⟨true, true, [newFile]⟩
  archived := .ok ()
  archiveSize := some 1
  archiveHashed := true
  renamed := true

def smoothRestore (visit : Visit) (imported : ImportOutcome) : RestoreCalls :=
  ⟨true, true, id, true, true, ⟨true, true, [visit]⟩, imported⟩

/-- The database cannot be imported, and the recovery goes well. -/
def failingRestore : RestoreCalls := smoothRestore oldFile (.refused (bytes "refused"))

def blogRecovery : RestoreCalls := smoothRestore newFile .done

def blogPrepared : Prepared where
  plan := ⟨oldBackup, blog, some blogDatabase⟩
  recoveryId := 2
  payload := oldArchive
  world := (createSiteBackupInternal smoothCreate 1 preRestoreRecovery 2 { blogWorld with backups := blogWorld.backups.reserve }).2

theorem blog_prepared :
    prepareRestore failingRestore smoothCreate 1 0 (bytes "full") (bytes "a.org") blogWorld = .ok blogPrepared := by
  rfl

theorem shows_treeOf (visit : Visit) : CopyCalls.Shows ⟨true, true, [visit]⟩ (treeOf visit) :=
  List.forall_mem_singleton.mpr (Function.update_self ..)

theorem blog_iterates (prepared : Prepared)
    (h : prepareRestore failingRestore smoothCreate 1 0 (bytes "full") (bytes "a.org") blogWorld = .ok prepared) :
    Iterates failingRestore smoothCreate blogRecovery blogWorld prepared := by
  obtain rfl := Except.ok.inj (blog_prepared.symm.trans h)
  obtain ⟨-, -, database, archive, record, backups, -, hCreated⟩ := prepareRestore_ok blog_prepared
  refine ⟨shows_treeOf oldFile, shows_treeOf newFile, ?_⟩
  intro record' archive' hRecord hArchive
  obtain rfl := Option.some.inj (hRecord.symm.trans hCreated.found.1)
  obtain rfl := Option.some.inj (hArchive.symm.trans hCreated.found.2)
  have hTree : treeOf newFile = archive'.tree := (Prod.mk.inj hCreated.staged).2
  rw [← hTree]
  exact shows_treeOf newFile

end Sample

end ContainerCP.Backups
