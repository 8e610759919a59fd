import ContainerCP.Backups.RestoreTruth

/-! Which archive belongs to which backup, over runs of backups, restores and removals. -/
namespace ContainerCP.Backups

/-- One call of the service. -/
inductive Operation where
  | create (calls : CreateCalls) (siteId : Nat) (backupType : Bytes)
  | restore (calls : RestoreCalls) (create : CreateCalls) (recovery : RestoreCalls) (backupId targetSiteId : Nat)
      (mode confirmation : Bytes)
  | remove (removed : Except Bytes Unit) (backupId : Nat)

def step (world : World) : Operation → World
  | .create calls siteId backupType => (createSiteBackup calls siteId backupType world).2
  | .restore calls create recovery backupId targetSiteId mode confirmation =>
      (restoreBackup calls create recovery backupId targetSiteId mode confirmation world).2
  | .remove removed backupId => (removeBackup removed backupId world).2

def run (world : World) (operations : List Operation) : World := operations.foldl step world

/-- What the clock says in a call. -/
def Operation.times : Operation → List Nat
  | .create calls _ _ => [calls.nowSeconds, calls.createdSeconds]
  | .restore _ made _ _ _ _ _ => [made.nowSeconds, made.createdSeconds]
  | .remove _ _ => []

/-- The archive at the path of a backup is the one that was written for it. -/
def HasArchive (world : World) (backup : Backup) : Prop :=
  ∃ archive manifest, world.archives backup.filePath = some archive ∧ archive.manifest = some manifest ∧
    manifest.backupId = backup.id

/-- The backups have distinct ids, distinct paths, and their archives. -/
structure Owned (world : World) : Prop where
  ids : (world.backups.records.map Backup.id).Nodup
  paths : (world.backups.records.map Backup.filePath).Nodup
  archives : ∀ backup ∈ world.backups.records, HasArchive world backup

/-- A path of the temporary archives. -/
def IsTmp (path : Bytes) : Prop := bytes ".tmp" <:+ path

/-- No backup is at a temporary path. -/
def Named (world : World) : Prop := ∀ backup ∈ world.backups.records, ¬IsTmp backup.filePath

/-! ## Effects -/

/-- The backups are the same, and so are the archives that are not temporary. -/
structure KeptArchives (world after : World) : Prop where
  records : after.backups.records = world.backups.records
  archives : ∀ path, ¬IsTmp path → after.archives path = world.archives path

/-- One more backup, whose archive takes the place of whatever was at its path. -/
structure MadeArchive (world after : World) (domain : Bytes) (calls : CreateCalls) (backupType : Bytes) (record : Backup)
    (archive : Archive) : Prop where
  records : after.backups.records = world.backups.records ++ [record]
  id : record.id = world.backups.nextId
  filePath : record.filePath = archivePath world domain calls backupType
  manifest : ∃ manifest, archive.manifest = some manifest ∧ manifest.backupId = record.id
  archive : after.archives record.filePath = some archive
  others : ∀ path, path ≠ record.filePath → ¬IsTmp path → after.archives path = world.archives path

theorem isTmp_tmpArchivePath (world : World) (domain : Bytes) (calls : CreateCalls) (backupType : Bytes) :
    IsTmp (tmpArchivePath world domain calls backupType) := by
  rw [IsTmp, tmpArchivePath, joinPath, ← List.append_assoc]
  exact List.suffix_append _ _

theorem not_isTmp_archivePath (world : World) (domain : Bytes) (calls : CreateCalls) (backupType : Bytes) :
    ¬IsTmp (archivePath world domain calls backupType) := by
  rw [IsTmp, archivePath, joinPath, archiveName, ← List.append_assoc]
  intro h
  have hSuffix : bytes ".tar.gz" <:+ world.backupDir ++ bytes "/" ++
      (domain ++ bytes "-" ++ nowFilename calls.nowSeconds ++
        if backupType = preRestoreRecovery then bytes "-recovery" else []) ++ bytes ".tar.gz" := List.suffix_append _ _
  have hShort : bytes ".tmp" <:+ bytes ".tar.gz" := List.suffix_of_suffix_length_le h hSuffix (by decide)
  revert hShort
  decide

/-- What a backup with the next id does. -/
theorem create_effect (calls : CreateCalls) (siteId : Nat) (backupType : Bytes) (world : World) :
    ((createSiteBackup calls siteId backupType world).1.success = false ∧
        KeptArchives world (createSiteBackup calls siteId backupType world).2) ∨
      ((createSiteBackup calls siteId backupType world).1.success = true ∧
        ∃ site record archive, (world.sites.find fun site => site.id = siteId) = some site ∧
          MadeArchive world (createSiteBackup calls siteId backupType world).2 site.domain calls backupType record archive) := by
  rw [createSiteBackup]
  obtain ⟨hFailed, hLeft⟩ | ⟨hSuccess, site, database, archive, record, backups, hCreated⟩ := createSiteBackupInternal_cases calls
    siteId backupType world.backups.nextId { world with backups := world.backups.reserve }
  · refine Or.inl ⟨hFailed, ?_⟩
    generalize (createSiteBackupInternal calls siteId backupType world.backups.nextId
      { world with backups := world.backups.reserve }).2 = left at hLeft
    cases hLeft with
    | same => exact ⟨rfl, fun _ _ => rfl⟩
    | cleaned site =>
        refine ⟨rfl, fun path hPath => Function.update_of_ne ?_ ..⟩
        rintro rfl
        exact hPath (isTmp_tmpArchivePath ..)
    | taken archives record hId hTaken =>
        have hFree : (world.backups.reserve.insert record).isSome = true :=
          Registry.insert_isSome fun other hMem => hId ▸ Registry.nextId_ne hMem
        rw [hTaken] at hFree
        cases hFree
  · refine Or.inr ⟨hSuccess, site, record, archive, hCreated.site_found, ?_⟩
    obtain ⟨manifest, hManifest, -, hBackupId⟩ := hCreated.manifest
    refine ⟨?_, hCreated.id, hCreated.filePath, ⟨manifest, hManifest, hBackupId.trans hCreated.id.symm⟩, hCreated.found.2, ?_⟩
    · rw [hCreated.world_eq, Registry.records_insert hCreated.inserted]
      rfl
    · intro path hOther hPath
      rw [hCreated.world_eq]
      refine (Function.update_of_ne hOther ..).trans (Function.update_of_ne ?_ ..)
      rintro rfl
      exact hPath (isTmp_tmpArchivePath ..)

/-- The managers' backups and the archives are left alone. -/
structure SameStore (world after : World) : Prop where
  backups : after.backups = world.backups
  archives : after.archives = world.archives

theorem SameStore.trans {first second third : World} (h : SameStore first second) (h' : SameStore second third) :
    SameStore first third :=
  ⟨h'.backups.trans h.backups, h'.archives.trans h.archives⟩

/-- What a restore writes goes into the sites alone, if its recovery does so. -/
theorem applyRestore_sameStore {recover : Bytes → World → Bool × World} (hRecover : ∀ mode world, SameStore world (recover mode world).2)
    (calls : RestoreCalls) (plan : RestorePlan) (mode : Bytes) (backupId recoveryId : Nat) (payload : Archive) (world : World) :
    SameStore world (applyRestore calls plan mode backupId recoveryId payload recover world).2 := by
  cases hLaid : laid calls mode (world.dirs plan.site.domain) with
  | mk copied tree =>
      have hWritten : SameStore world (written calls plan mode payload tree world) := by
        obtain ⟨-, -, hBackups, hArchives⟩ := written_rest calls plan mode payload tree world
        exact ⟨hBackups, hArchives⟩
      cases copied with
      | false =>
          have hFiles : SameStore world { world with dirs := Function.update world.dirs plan.site.domain tree } := ⟨rfl, rfl⟩
          rw [laid] at hLaid
          have hAfter : (applyRestore calls plan mode backupId recoveryId payload recover world).2 =
              (recover (bytes "files_only") { world with dirs := Function.update world.dirs plan.site.domain tree }).2 := by
            simp only [applyRestore, hLaid, Bool.not_false, if_true]
          rw [hAfter]
          exact hFiles.trans (hRecover _ _)
      | true =>
          by_cases hImport : databaseMode mode = true → calls.imported.failure = none
          · rw [(applyRestore_done plan backupId recoveryId payload recover hLaid hImport).2]
            exact hWritten
          · push Not at hImport
            obtain ⟨hMode, hFailure⟩ := hImport
            obtain ⟨message, hMessage⟩ := Option.ne_none_iff_exists'.mp hFailure
            rw [(applyRestore_failed plan backupId recoveryId payload recover hLaid hMode hMessage).2.2]
            exact hWritten.trans (hRecover _ _)

theorem restoreRecovery_sameStore (calls : RestoreCalls) (backupId targetSiteId : Nat) (mode confirmation : Bytes) (world : World) :
    SameStore world (restoreRecovery calls backupId targetSiteId mode confirmation world).2 := by
  rw [restoreRecovery]
  split
  · exact ⟨rfl, rfl⟩
  · split
    · exact ⟨rfl, rfl⟩
    · exact applyRestore_sameStore (fun _ _ => ⟨rfl, rfl⟩) ..

/-- What a restore does to the backups is what its recovery backup does. -/
theorem restore_effect (calls : RestoreCalls) (create : CreateCalls) (recovery : RestoreCalls) (backupId targetSiteId : Nat)
    (mode confirmation : Bytes) (world : World) :
    match restorePlan calls backupId targetSiteId mode confirmation world with
    | .error _ => (restoreBackup calls create recovery backupId targetSiteId mode confirmation world).2 = world
    | .ok plan => SameStore (createSiteBackup create plan.site.id preRestoreRecovery world).2
        (restoreBackup calls create recovery backupId targetSiteId mode confirmation world).2 := by
  rw [restoreBackup, prepareRestore]
  cases restorePlan calls backupId targetSiteId mode confirmation world with
  | error failed => rfl
  | ok plan =>
      dsimp only
      cases hMade : (createSiteBackupInternal create plan.site.id preRestoreRecovery world.backups.nextId
          { world with backups := world.backups.reserve }).1.success with
      | false => exact ⟨rfl, rfl⟩
      | true =>
          simp only [Bool.not_true, Bool.false_eq_true, if_false]
          generalize extractPayload calls plan mode (calls.pathRead plan.backup.filePath) backupId world.backups.nextId
            (createSiteBackupInternal create plan.site.id preRestoreRecovery world.backups.nextId
              { world with backups := world.backups.reserve }).2 = extracted
          cases extracted with
          | error failed => exact ⟨rfl, rfl⟩
          | ok payload => exact applyRestore_sameStore (fun _ _ => restoreRecovery_sameStore ..) ..

/-- What a removal does. -/
theorem remove_effect (removed : Except Bytes Unit) (backupId : Nat) (world : World) :
    ((removeBackup removed backupId world).2 = world) ∨
      ∃ backup ∈ world.backups.records, backup.id = backupId ∧
        (removeBackup removed backupId world).2.backups = world.backups.remove backupId ∧
        ∀ path, path ≠ backup.filePath → (removeBackup removed backupId world).2.archives path = world.archives path := by
  rw [removeBackup]
  cases hFind : world.backups.find fun backup => backup.id = backupId with
  | none => exact Or.inl rfl
  | some backup =>
      have hMem := List.mem_of_find?_eq_some hFind
      have hId : backup.id = backupId := by simpa using List.find?_some hFind
      dsimp only
      split
      · exact Or.inr ⟨backup, hMem, hId, rfl, fun _ _ => rfl⟩
      · cases removed with
        | error message => exact Or.inl rfl
        | ok _ => exact Or.inr ⟨backup, hMem, hId, rfl, fun path hOther => Function.update_of_ne hOther ..⟩

/-! ## One step -/

/-- If the backup is made, no backup on record is at its path. -/
def FreshName (calls : CreateCalls) (siteId : Nat) (backupType : Bytes) (world : World) : Prop :=
  (createSiteBackup calls siteId backupType world).1.success = true →
    ∀ site, (world.sites.find fun site => site.id = siteId) = some site →
      ∀ backup ∈ world.backups.records, backup.filePath ≠ archivePath world site.domain calls backupType

/-- The backup that a call makes has a fresh name. -/
def FreshStep (world : World) : Operation → Prop
  | .create calls siteId backupType => FreshName calls siteId backupType world
  | .restore calls create _ backupId targetSiteId mode confirmation => ∀ plan,
      restorePlan calls backupId targetSiteId mode confirmation world = .ok plan →
        FreshName create plan.site.id preRestoreRecovery world
  | .remove _ _ => True

section Step

variable {world after : World}

theorem SameStore.owned_iff (h : SameStore world after) : Owned after ↔ Owned world := by
  obtain ⟨hBackups, hArchives⟩ := h
  constructor
  · rintro ⟨hIds, hPaths, hAll⟩
    rw [hBackups] at hIds hPaths hAll
    refine ⟨hIds, hPaths, fun backup hMem => ?_⟩
    obtain ⟨archive, manifest, hArchive, hRest⟩ := hAll backup hMem
    exact ⟨archive, manifest, hArchives ▸ hArchive, hRest⟩
  · rintro ⟨hIds, hPaths, hAll⟩
    rw [← hBackups] at hIds hPaths hAll
    refine ⟨hIds, hPaths, fun backup hMem => ?_⟩
    obtain ⟨archive, manifest, hArchive, hRest⟩ := hAll backup hMem
    exact ⟨archive, manifest, hArchives ▸ hArchive, hRest⟩

theorem SameStore.named (h : SameStore world after) (hNamed : Named world) : Named after := by
  rw [Named, h.backups]
  exact hNamed

theorem KeptArchives.owned (h : KeptArchives world after) (hOwned : Owned world) (hNamed : Named world) : Owned after := by
  refine ⟨after.backups.nodup, ?_, ?_⟩
  · rw [h.records]
    exact hOwned.paths
  · rw [h.records]
    intro backup hMem
    obtain ⟨archive, manifest, hArchive, hRest⟩ := hOwned.archives backup hMem
    exact ⟨archive, manifest, (h.archives _ (hNamed backup hMem)).trans hArchive, hRest⟩

/-- A backup that is made keeps the others with their archives exactly where it takes the
path of none of them. -/
theorem MadeArchive.owned_iff {domain backupType : Bytes} {calls : CreateCalls} {record : Backup} {archive : Archive}
    (h : MadeArchive world after domain calls backupType record archive) (hOwned : Owned world) (hNamed : Named world) :
    Owned after ↔ ∀ backup ∈ world.backups.records, backup.filePath ≠ record.filePath := by
  constructor
  · intro hAfter backup hMem hPath
    have hPaths := hAfter.paths
    rw [h.records, List.map_append, List.map_singleton, List.nodup_append] at hPaths
    exact hPaths.2.2 _ (List.mem_map_of_mem hMem) _ (List.mem_singleton_self _) hPath
  · intro hFresh
    refine ⟨after.backups.nodup, ?_, ?_⟩
    · rw [h.records, List.map_append, List.map_singleton, List.nodup_append]
      refine ⟨hOwned.paths, List.nodup_singleton _, ?_⟩
      intro path hMem other hOther
      obtain ⟨backup, hBackup, rfl⟩ := List.mem_map.mp hMem
      rw [List.mem_singleton.mp hOther]
      exact hFresh backup hBackup
    · rw [h.records, List.forall_mem_append, List.forall_mem_singleton]
      constructor
      · intro backup hMem
        obtain ⟨found, manifest, hArchive, hRest⟩ := hOwned.archives backup hMem
        exact ⟨found, manifest, (h.others _ (hFresh backup hMem) (hNamed backup hMem)).trans hArchive, hRest⟩
      · obtain ⟨manifest, hManifest, hId⟩ := h.manifest
        exact ⟨archive, manifest, h.archive, hManifest, hId⟩

theorem create_owned_iff (calls : CreateCalls) (siteId : Nat) (backupType : Bytes) (hOwned : Owned world) (hNamed : Named world) :
    Owned (createSiteBackup calls siteId backupType world).2 ↔ FreshName calls siteId backupType world := by
  rw [FreshName]
  obtain ⟨hFailed, hKept⟩ | ⟨hSuccess, site, record, archive, hSite, hMade⟩ := create_effect calls siteId backupType world
  · refine iff_of_true (hKept.owned hOwned hNamed) fun hSuccess => ?_
    rw [hFailed] at hSuccess
    cases hSuccess
  · rw [hMade.owned_iff hOwned hNamed, hMade.filePath]
    constructor
    · intro hFresh _ site' hSite'
      obtain rfl := Option.some.inj (hSite.symm.trans hSite')
      exact hFresh
    · exact fun hFresh => hFresh hSuccess site hSite

theorem create_named (calls : CreateCalls) (siteId : Nat) (backupType : Bytes) (hNamed : Named world) :
    Named (createSiteBackup calls siteId backupType world).2 := by
  rw [Named]
  obtain ⟨-, hKept⟩ | ⟨-, site, record, archive, -, hMade⟩ := create_effect calls siteId backupType world
  · rw [hKept.records]
    exact hNamed
  · rw [hMade.records, List.forall_mem_append, List.forall_mem_singleton, hMade.filePath]
    exact ⟨hNamed, not_isTmp_archivePath world site.domain calls backupType⟩

/-- The other backups keep their archives in a removal. -/
theorem remove_others (removed : Except Bytes Unit) (backupId : Nat) (hOwned : Owned world) {backup : Backup}
    (hMem : backup ∈ world.backups.records) (hId : backup.id ≠ backupId) :
    (removeBackup removed backupId world).2.archives backup.filePath = world.archives backup.filePath := by
  obtain hSame | ⟨gone, hGone, hGoneId, -, hOthers⟩ := remove_effect removed backupId world
  · rw [hSame]
  · refine hOthers _ fun hPath => hId ?_
    rw [List.inj_on_of_nodup_map hOwned.paths hMem hGone hPath, hGoneId]

theorem remove_owned (removed : Except Bytes Unit) (backupId : Nat) (hOwned : Owned world) :
    Owned (removeBackup removed backupId world).2 := by
  obtain hSame | ⟨gone, hGone, hGoneId, hBackups, hOthers⟩ := remove_effect removed backupId world
  · rw [hSame]
    exact hOwned
  · refine ⟨(removeBackup removed backupId world).2.backups.nodup, ?_, ?_⟩
    · rw [hBackups, Registry.records_remove]
      exact hOwned.paths.sublist (List.filter_sublist.map _)
    · intro backup hMem
      rw [hBackups, Registry.mem_remove] at hMem
      obtain ⟨archive, manifest, hArchive, hRest⟩ := hOwned.archives backup hMem.1
      exact ⟨archive, manifest, (remove_others removed backupId hOwned hMem.1 hMem.2).trans hArchive, hRest⟩

theorem remove_named (removed : Except Bytes Unit) (backupId : Nat) (hNamed : Named world) :
    Named (removeBackup removed backupId world).2 := by
  obtain hSame | ⟨gone, hGone, hGoneId, hBackups, hOthers⟩ := remove_effect removed backupId world
  · rw [hSame]
    exact hNamed
  · intro backup hMem
    rw [hBackups, Registry.mem_remove] at hMem
    exact hNamed backup hMem.1

/-- A call keeps the archives with their backups exactly where the name that it gives is
fresh. -/
theorem step_owned_iff (operation : Operation) (hOwned : Owned world) (hNamed : Named world) :
    Owned (step world operation) ↔ FreshStep world operation := by
  cases operation with
  | create calls siteId backupType => exact create_owned_iff calls siteId backupType hOwned hNamed
  | restore calls create recovery backupId targetSiteId mode confirmation =>
      have hEffect := restore_effect calls create recovery backupId targetSiteId mode confirmation world
      rw [FreshStep]
      change Owned (restoreBackup calls create recovery backupId targetSiteId mode confirmation world).2 ↔ _
      cases hPlan : restorePlan calls backupId targetSiteId mode confirmation world with
      | error failed =>
          rw [hPlan] at hEffect
          dsimp only at hEffect
          rw [hEffect]
          exact iff_of_true hOwned fun plan h => by cases h
      | ok plan =>
          rw [hPlan] at hEffect
          rw [hEffect.owned_iff, create_owned_iff create plan.site.id preRestoreRecovery hOwned hNamed]
          constructor
          · rintro hFresh plan' hEq
            obtain rfl := Except.ok.inj hEq
            exact hFresh
          · exact fun hFresh => hFresh plan rfl
  | remove removed backupId => exact iff_of_true (remove_owned removed backupId hOwned) trivial

theorem step_named (operation : Operation) (hNamed : Named world) : Named (step world operation) := by
  cases operation with
  | create calls siteId backupType => exact create_named calls siteId backupType hNamed
  | restore calls create recovery backupId targetSiteId mode confirmation =>
      have hEffect := restore_effect calls create recovery backupId targetSiteId mode confirmation world
      change Named (restoreBackup calls create recovery backupId targetSiteId mode confirmation world).2
      cases hPlan : restorePlan calls backupId targetSiteId mode confirmation world with
      | error failed =>
          rw [hPlan] at hEffect
          dsimp only at hEffect
          rw [hEffect]
          exact hNamed
      | ok plan =>
          rw [hPlan] at hEffect
          exact hEffect.named (create_named create plan.site.id preRestoreRecovery hNamed)
  | remove removed backupId => exact remove_named removed backupId hNamed

end Step

/-! ## Runs -/

section Run

variable {start : World} {operations : List Operation}

theorem run_concat (start : World) (operations : List Operation) (operation : Operation) :
    run start (operations ++ [operation]) = step (run start operations) operation := by
  rw [run, run, List.foldl_concat]

theorem run_named (hNamed : Named start) (operations : List Operation) : Named (run start operations) := by
  induction operations using List.reverseRecOn with
  | nil => exact hNamed
  | append_singleton before operation ih =>
      rw [run_concat]
      exact step_named operation ih

/-- In every state of the run the backups have their archives, and no removal touches the
archive of another backup. -/
structure OwnedRun (start : World) (operations : List Operation) : Prop where
  owned : ∀ before after, operations = before ++ after → Owned (run start before)
  removal : ∀ before removed backupId after, operations = before ++ .remove removed backupId :: after →
    ∀ backup ∈ (run start before).backups.records, backup.id ≠ backupId →
      (run start (before ++ [.remove removed backupId])).archives backup.filePath =
        (run start before).archives backup.filePath

/-- Over a run the archives stay with their backups exactly where each backup that is made
has a fresh name. -/
theorem run_owned_iff (hOwned : Owned start) (hNamed : Named start) :
    OwnedRun start operations ↔
      ∀ before operation after, operations = before ++ operation :: after → FreshStep (run start before) operation := by
  constructor
  · intro h before operation after hSplit
    have hNext := h.owned (before ++ [operation]) after (by rw [hSplit, List.append_assoc, List.singleton_append])
    rw [run_concat] at hNext
    exact (step_owned_iff operation (h.owned before _ hSplit) (run_named hNamed before)).mp hNext
  · intro hFresh
    have hStates : ∀ before after, operations = before ++ after → Owned (run start before) := by
      intro before
      induction before using List.reverseRecOn with
      | nil => exact fun _ _ => hOwned
      | append_singleton before operation ih =>
          intro after hSplit
          rw [List.append_assoc, List.singleton_append] at hSplit
          rw [run_concat, step_owned_iff operation (ih _ hSplit) (run_named hNamed before)]
          exact hFresh before operation after hSplit
    refine ⟨hStates, ?_⟩
    intro before removed backupId after hSplit backup hMem hId
    rw [run_concat]
    exact remove_others removed backupId (hStates before _ hSplit) hMem hId

end Run

section Sample

/-- The site without backups. -/
def unsavedWorld : World := { blogWorld with backups := Registry.empty, archives := fun _ => none }

theorem unsaved_owned : Owned unsavedWorld :=
  ⟨List.nodup_nil, List.nodup_nil, fun _ hMem => absurd hMem List.not_mem_nil⟩

theorem unsaved_named : Named unsavedWorld := fun _ hMem => absurd hMem List.not_mem_nil

/-- Two backups in one second. -/
def twoBackups : List Operation := [.create smoothCreate 1 (bytes "manual"), .create smoothCreate 1 (bytes "manual")]

theorem run_owned_iff_sample :
    OwnedRun unsavedWorld twoBackups ↔
      ∀ before operation after, twoBackups = before ++ operation :: after → FreshStep (run unsavedWorld before) operation :=
  run_owned_iff unsaved_owned unsaved_named

/-- The second archive takes the place of the first. -/
theorem run_not_owned :
    ¬∀ (start : World) (operations : List Operation), Owned start → Named start →
      (operations.flatMap Operation.times).Pairwise (· ≤ ·) → OwnedRun start operations := by
  intro hAll
  have hRun := hAll unsavedWorld twoBackups unsaved_owned unsaved_named (by decide)
  have hPaths := (hRun.owned twoBackups [] (List.append_nil _).symm).paths
  revert hPaths
  decide

end Sample

end ContainerCP.Backups
