import ContainerCP.Migration.FilesImport

/-! What an import of the files leaves, set against what it says: the public directory or a
copy of it where it fails, and the marker where it succeeds. -/
namespace ContainerCP.Migration

/-! ## The marker -/

section Marker

variable {reads : Reads} {opts : Options}

/-- The next stage is in the marker. -/
def AdvancedByOne (before after : Option Bytes) : Prop :=
  ∃ text text', before = some text ∧ after = some text' ∧
    (MigrationMarker.parse text').stage = (MigrationMarker.parse text).stage + 1

theorem not_advancedByOne (marker : Option Bytes) : ¬AdvancedByOne marker marker := by
  rintro ⟨text, text', rfl, hText, hStage⟩
  obtain rfl := Option.some.inj hText
  exact absurd hStage (by simp)

/-- The marker of this site, at a stage. -/
def AtStage (reads : Reads) (opts : Options) (stage : UInt64) : Prop :=
  ∃ content, reads.marker = some content ∧ (MigrationMarker.parse content).stage = stage ∧
    (MigrationMarker.parse content).domain = opts.domain ∧ (MigrationMarker.parse content).owner = opts.owner

theorem identity_of_no_error {marker : MigrationMarker} (h : identityError reads opts marker = []) :
    marker.domain = opts.domain ∧ marker.owner = opts.owner := by
  rw [identityError] at h
  split at h
  · exact absurd h (by decide)
  next id =>
  split at h
  · exact absurd h (by decide)
  split at h
  · exact absurd h (by simp [bytes])
  split at h
  · exact absurd h (by decide)
  next hDomain =>
  split at h
  · exact absurd h (by decide)
  next hOwner => exact ⟨not_not.mp hDomain, not_not.mp hOwner⟩

theorem stage_of_canImportFiles {manifest : Manifest} (h : (withStage manifest).canImportFiles = true)
    (hBefore : manifest.canImportFiles = false) : manifest.migrationStage = 1 := by
  rw [withStage] at h
  split at h
  · next hStage => exact hStage
  split at h
  · exact absurd h (by simp [hBefore])
  split at h
  · exact absurd h (by simp [hBefore])
  · exact absurd h (by simp [hBefore])

theorem stage_of_canImportSql {manifest : Manifest} (h : (withStage manifest).canImportSql = true)
    (hBefore : manifest.canImportSql = false) : manifest.migrationStage = 2 := by
  rw [withStage] at h
  split at h
  · exact absurd h (by simp [hBefore])
  split at h
  · next hStage => exact hStage
  split at h
  · exact absurd h (by simp [hBefore])
  · exact absurd h (by simp [hBefore])

/-- Only a marker of this site at its stage lets an import go on. -/
theorem atStage_of_withMarker {manifest : Manifest} (hFiles : manifest.canImportFiles = false) (hSql : manifest.canImportSql = false) :
    ((withMarker reads opts manifest).canImportFiles = true → AtStage reads opts 1) ∧
      ((withMarker reads opts manifest).canImportSql = true → AtStage reads opts 2) := by
  unfold withMarker
  dsimp only
  split
  · next content hKnown hMarker =>
    split
    · next hIdentity =>
      obtain ⟨hDomain, hOwner⟩ := identity_of_no_error hIdentity
      exact ⟨fun h => ⟨content, hMarker, stage_of_canImportFiles h hFiles, hDomain, hOwner⟩,
        fun h => ⟨content, hMarker, stage_of_canImportSql h hSql, hDomain, hOwner⟩⟩
    · exact ⟨fun h => by simp [hFiles] at h, fun h => by simp [hSql] at h⟩
  · exact ⟨fun h => by simp [hFiles] at h, fun h => by simp [hSql] at h⟩

theorem canImport_extractWpConfig (content : Option Bytes) (manifest : Manifest) :
    (extractWpConfig content manifest).canImportFiles = manifest.canImportFiles ∧
      (extractWpConfig content manifest).canImportSql = manifest.canImportSql := by
  cases content <;> exact ⟨rfl, rfl⟩

theorem canImport_withDatabase (entries : List Bytes) (manifest : Manifest) :
    (withDatabase entries opts manifest).canImportFiles = manifest.canImportFiles ∧
      (withDatabase entries opts manifest).canImportSql = manifest.canImportSql := by
  unfold withDatabase
  split
  · dsimp only
    split <;> exact ⟨rfl, rfl⟩
  · exact ⟨rfl, rfl⟩

theorem canImport_withWarnings (manifest : Manifest) :
    (withWarnings manifest).canImportFiles = manifest.canImportFiles ∧
      (withWarnings manifest).canImportSql = manifest.canImportSql := by
  unfold withWarnings
  dsimp only
  split <;> split <;> exact ⟨rfl, rfl⟩

theorem atStage_of_inspect :
    ((inspect reads opts).canImportFiles = true → AtStage reads opts 1) ∧
      ((inspect reads opts).canImportSql = true → AtStage reads opts 2) := by
  unfold inspect
  split
  · exact ⟨fun h => absurd h Bool.false_ne_true, fun h => absurd h Bool.false_ne_true⟩
  split
  · exact ⟨fun h => absurd h Bool.false_ne_true, fun h => absurd h Bool.false_ne_true⟩
  split
  · exact ⟨fun h => absurd h Bool.false_ne_true, fun h => absurd h Bool.false_ne_true⟩
  dsimp only
  split
  · exact ⟨fun h => absurd h Bool.false_ne_true, fun h => absurd h Bool.false_ne_true⟩
  split
  · exact ⟨fun h => absurd h Bool.false_ne_true, fun h => absurd h Bool.false_ne_true⟩
  split
  · exact ⟨fun h => absurd h Bool.false_ne_true, fun h => absurd h Bool.false_ne_true⟩
  · rw [(canImport_withWarnings _).1, (canImport_withDatabase _ _).1, (canImport_withWarnings _).2, (canImport_withDatabase _ _).2]
    exact atStage_of_withMarker (canImport_extractWpConfig _ _).1 (canImport_extractWpConfig _ _).2

/-- A marker that the import writes for the next stage is read so. -/
theorem advancedByOne_of_atStage {stage : UInt64} {marker : MigrationMarker} (h : AtStage reads opts stage)
    (hDomain : marker.domain = opts.domain) (hOwner : marker.owner = opts.owner) (hStage : marker.stage = stage + 1) :
    AdvancedByOne reads.marker (some marker.toJson) := by
  obtain ⟨content, hContent, hBefore, hReadDomain, hReadOwner⟩ := h
  refine ⟨content, marker.toJson, hContent, rfl, ?_⟩
  have hPlainDomain : Json.quote ∉ marker.domain := by
    rw [hDomain, ← hReadDomain]
    exact MigrationMarker.quote_notMem_getString _ _
  have hPlainOwner : Json.quote ∉ marker.owner := by
    rw [hOwner, ← hReadOwner]
    exact MigrationMarker.quote_notMem_getString _ _
  rw [MigrationMarker.stage_parse_toJson hPlainDomain hPlainOwner, hStage, hBefore]

end Marker

/-! ## The files -/

section Files

variable {reads : Reads} {opts : Options} {calls : FilesCalls} {publicDir : FileTree}

/-- Where the import fails, the public directory is as it was or there is a complete copy of
it; where it succeeds, the next stage is in the marker. -/
structure FilesTruth (reads : Reads) (publicDir : FileTree) (run : ImportFilesResult × FilesDisk) : Prop where
  kept : run.1.success = false → run.2.publicDir = publicDir ∨ run.2.safetyCopy = some publicDir
  advanced : run.1.success = true → AdvancedByOne reads.marker run.2.marker

namespace FilesCalls

/-- The files of the backup can be taken out, and are those of a site. -/
def extracted (calls : FilesCalls) : Bool :=
  calls.extract && calls.symlinks = [] && calls.sourceDirectory && calls.realPaths && calls.insideExtracted

/-- The files of the backup can be put into the place of the others. -/
def replaced (calls : FilesCalls) : Bool := calls.clean && calls.copyFiles && calls.chown && calls.start && healthy calls

/-- All goes well up to the first change. -/
def begins (calls : FilesCalls) : Bool := calls.innerTar = [] && calls.safetyCopy && calls.stop

end FilesCalls

/-- The condition: behind the safety copy and the stop, either all goes well and the marker
is written; or no link of the public directory is unsafe, and the copy is kept or the
rollback works. -/
def FilesRecoverable (reads : Reads) (opts : Options) (calls : FilesCalls) (publicDir : FileTree) : Prop :=
  ∀ prepared, prepareFiles reads opts calls = .ok prepared → calls.begins = true →
    if calls.extracted && calls.replaced then calls.markerFile = true ∧ calls.markerRename = true
    else
      safeLinks calls publicDir = publicDir ∧
        (opts.keepStaging = true ∨
          ((calls.rollbackRemove = true ∨ (calls.extracted && calls.clean) = false) ∧
            (calls.rollbackCopy = true ∨ publicDir = ∅)))

variable {left : FilesLeftovers} {webRootType : Bytes}

/-- Up to the stop nothing is changed. -/
theorem copyFilesToPublic_of_not_begins (left : FilesLeftovers) (webRootType : Bytes) (publicDir : FileTree)
    (h : calls.begins = false) :
    ∃ errors safety, errors ≠ [] ∧ copyFilesToPublic calls left webRootType publicDir = (errors, publicDir, safety) := by
  rw [copyFilesToPublic]
  split
  · next hInner => exact ⟨_, _, hInner, rfl⟩
  next hInner =>
  dsimp only
  split
  · exact ⟨_, _, List.cons_ne_nil _ _, rfl⟩
  next hSafety =>
  split
  · exact ⟨_, _, List.cons_ne_nil _ _, rfl⟩
  next hStop =>
  rw [Bool.not_eq_true', Bool.not_eq_false] at hSafety hStop
  rw [FilesCalls.begins, not_not.mp hInner, hSafety, hStop] at h
  exact absurd h (by decide)

/-- Behind the stop the files are replaced, or the rollback runs. -/
theorem copyFilesToPublic_cases (h : calls.begins = true) :
    (calls.extracted = true ∧
        copyFilesToPublic calls left webRootType publicDir =
          ((replacePublic calls left (safeLinks calls publicDir) publicDir).1,
            (replacePublic calls left (safeLinks calls publicDir) publicDir).2, some (safeLinks calls publicDir))) ∨
      (calls.extracted = false ∧ ∃ errors, errors ≠ [] ∧
        copyFilesToPublic calls left webRootType publicDir =
          (errors, rollbackStage2 calls left (safeLinks calls publicDir) publicDir, some (safeLinks calls publicDir))) := by
  simp only [FilesCalls.begins, Bool.and_eq_true, decide_eq_true_eq] at h
  obtain ⟨⟨hInner, hSafety⟩, hStop⟩ := h
  unfold copyFilesToPublic undoFiles
  simp only [hInner, hSafety, hStop, ne_eq, not_true_eq_false, if_false, Bool.not_true, Bool.false_eq_true]
  by_cases hExtract : calls.extract = true
  · by_cases hSymlinks : calls.symlinks = []
    · by_cases hSource : calls.sourceDirectory = true
      · by_cases hReal : calls.realPaths = true
        · by_cases hInside : calls.insideExtracted = true
          · simp [FilesCalls.extracted, hExtract, hSymlinks, hSource, hReal, hInside]
          · simp [FilesCalls.extracted, hExtract, hSymlinks, hSource, hReal, hInside]
        · simp [FilesCalls.extracted, hExtract, hSymlinks, hSource, hReal]
      · simp [FilesCalls.extracted, hExtract, hSymlinks, hSource]
    · simp [FilesCalls.extracted, hExtract, hSymlinks]
  · simp [FilesCalls.extracted, hExtract]

/-- The public directory in front of a rollback behind the extraction. -/
def putInPlace (calls : FilesCalls) (left : FilesLeftovers) (publicDir : FileTree) : FileTree :=
  if calls.clean then
    if calls.copyFiles then safeLinks calls left.source else partOf left.copied (safeLinks calls left.source)
  else publicDir.keep fun path _ => !left.cleaned path

theorem replacePublic_cases (safety : FileTree) :
    (calls.replaced = true ∧ replacePublic calls left safety publicDir = ([], safeLinks calls left.source)) ∨
      (calls.replaced = false ∧ ∃ errors, errors ≠ [] ∧
        replacePublic calls left safety publicDir =
          (errors, rollbackStage2 calls left safety (putInPlace calls left publicDir))) := by
  unfold replacePublic putInPlace undoFiles FilesCalls.replaced
  dsimp only
  by_cases hClean : calls.clean = true
  · by_cases hCopy : calls.copyFiles = true
    · by_cases hChown : calls.chown = true
      · by_cases hStart : calls.start = true
        · by_cases hHealthy : healthy calls = true
          · simp [hClean, hCopy, hChown, hStart, hHealthy]
          · simp [hClean, hCopy, hChown, hStart, hHealthy]
        · simp [hClean, hCopy, hChown, hStart]
      · simp [hClean, hCopy, hChown]
    · simp [hClean, hCopy]
  · simp [hClean]

/-- What stands in the public directory when the rollback starts. -/
def inFront (calls : FilesCalls) (left : FilesLeftovers) (publicDir : FileTree) : FileTree :=
  if calls.extracted then putInPlace calls left publicDir else publicDir

/-- The safety copy behind the removal of the staging directory. -/
def copyLeft (opts : Options) (calls : FilesCalls) (left : FilesLeftovers) (safety : FileTree) : Option FileTree :=
  if opts.keepStaging then some safety else if calls.cleanup || !left.stagingSpared then none else some safety

/-- A run that was undone. -/
structure FilesUndone (opts : Options) (calls : FilesCalls) (left : FilesLeftovers) (publicDir : FileTree)
    (run : ImportFilesResult × FilesDisk) : Prop where
  failed : run.1.success = false
  tree : run.2.publicDir = rollbackStage2 calls left (safeLinks calls publicDir) (inFront calls left publicDir)
  copy : run.2.safetyCopy = copyLeft opts calls left (safeLinks calls publicDir)

theorem cleanupFiles_publicDir (disk : FilesDisk) : (cleanupFiles opts calls left disk).publicDir = disk.publicDir := by
  unfold cleanupFiles
  split <;> rfl

theorem cleanupFiles_marker (disk : FilesDisk) : (cleanupFiles opts calls left disk).marker = disk.marker := by
  unfold cleanupFiles
  split <;> rfl

theorem cleanupFiles_safetyCopy {disk : FilesDisk} {safety : FileTree} (h : disk.safetyCopy = some safety) :
    (cleanupFiles opts calls left disk).safetyCopy = copyLeft opts calls left safety := by
  unfold cleanupFiles copyLeft
  split
  · exact h
  · rw [h]

section Prepared

variable {prepared : FilesPrepared} (hPrepared : prepareFiles reads opts calls = .ok prepared)

include hPrepared

theorem importFiles_undone (left : FilesLeftovers) (publicDir : FileTree) (hBegins : calls.begins = true) (hUndone : (calls.extracted && calls.replaced) = false) :
    FilesUndone opts calls left publicDir (importFiles reads opts calls left publicDir) := by
  have hRun : ∃ errors, errors ≠ [] ∧ copyFilesToPublic calls left prepared.webRootType publicDir =
      (errors, rollbackStage2 calls left (safeLinks calls publicDir) (inFront calls left publicDir), some (safeLinks calls publicDir)) := by
    unfold inFront
    rcases copyFilesToPublic_cases hBegins with ⟨hExtracted, hCopy⟩ | ⟨hExtracted, errors, hErrors, hCopy⟩
    · rcases replacePublic_cases (safeLinks calls publicDir) with ⟨hReplaced, -⟩ | ⟨-, errors, hErrors, hReplace⟩
      · rw [hExtracted, hReplaced] at hUndone
        cases hUndone
      · exact ⟨errors, hErrors, by rw [hCopy, hReplace, hExtracted]; rfl⟩
    · exact ⟨errors, hErrors, by rw [hCopy, hExtracted]; rfl⟩
  obtain ⟨errors, hErrors, hCopy⟩ := hRun
  unfold importFiles
  rw [hPrepared]
  dsimp only
  rw [hCopy]
  dsimp only
  rw [if_pos hErrors]
  exact ⟨rfl, cleanupFiles_publicDir _, cleanupFiles_safetyCopy rfl⟩

theorem importFiles_done (left : FilesLeftovers) (publicDir : FileTree) (hBegins : calls.begins = true) (hDone : (calls.extracted && calls.replaced) = true) :
    (importFiles reads opts calls left publicDir).1.success = true ∧
      (importFiles reads opts calls left publicDir).2.marker =
        if calls.markerFile && calls.markerRename then some (filesMarker opts prepared.siteId).toJson else reads.marker := by
  obtain ⟨hExtracted, hReplaced⟩ := (Bool.and_eq_true _ _).mp hDone
  have hRun : copyFilesToPublic calls left prepared.webRootType publicDir =
      ([], safeLinks calls left.source, some (safeLinks calls publicDir)) := by
    rcases copyFilesToPublic_cases hBegins with ⟨-, hCopy⟩ | ⟨hNot, -⟩
    · rcases replacePublic_cases (safeLinks calls publicDir) with ⟨-, hReplace⟩ | ⟨hNot, -⟩
      · rw [hCopy, hReplace]
      · rw [hReplaced] at hNot
        cases hNot
    · rw [hExtracted] at hNot
      cases hNot
  unfold importFiles
  rw [hPrepared]
  dsimp only
  rw [hRun]
  simp only [ne_eq, not_true_eq_false, if_false]
  cases hFile : calls.markerFile with
  | false => exact ⟨rfl, cleanupFiles_marker _⟩
  | true =>
      cases hRename : calls.markerRename with
      | false => exact ⟨rfl, cleanupFiles_marker _⟩
      | true => exact ⟨rfl, rfl⟩

end Prepared

/-! ## The rollback -/

/-- The rollback brings the public directory back where its parts work, and what the import
put there is gone. -/
theorem rollbackStage2_eq (hSafe : safeLinks calls publicDir = publicDir)
    (hRemove : calls.rollbackRemove = true ∨ (calls.extracted && calls.clean) = false)
    (hCopy : calls.rollbackCopy = true ∨ publicDir = ∅) :
    rollbackStage2 calls left (safeLinks calls publicDir) (inFront calls left publicDir) = publicDir := by
  have hNothingNew : ∀ path, publicDir.get path = none → (if calls.rollbackRemove then ∅
      else (inFront calls left publicDir).keep fun path _ => !left.rollbackRemoved path).get path = none := by
    intro path hPath
    split
    · rfl
    next hFails =>
    have hKept := hRemove.resolve_left hFails
    apply Store.get_keep_eq_none
    rw [inFront, putInPlace]
    split
    · next hExtracted =>
      rw [hExtracted, Bool.true_and] at hKept
      rw [hKept]
      exact Store.get_keep_eq_none _ hPath
    · exact hPath
  rw [rollbackStage2, hSafe, hSafe]
  rcases hCopy with hCopy | rfl
  · rw [if_pos hCopy]
    exact Store.above_eq_left_iff.mpr hNothingNew
  · have hEmpty : ∀ part : FileTree, part = ∅ → part.above (if calls.rollbackRemove then ∅
        else (inFront calls left ∅).keep fun path _ => !left.rollbackRemoved path) = ∅ := by
      rintro part rfl
      exact Store.above_eq_left_iff.mpr hNothingNew
    apply hEmpty
    split
    · rfl
    · exact Store.keep_empty _

/-- What is left where as much as possible is lost. -/
def nothingLeft : FilesLeftovers where
  source := ∅
  cleaned := fun _ => true
  copied := fun _ => true
  rollbackRemoved := fun _ => true
  rollbackCopied := fun _ => true
  stagingSpared := false

theorem rollbackStage2_removed (hRemoved : left.rollbackRemoved = fun _ => true) (safety tree : FileTree) :
    rollbackStage2 calls left safety tree =
      if calls.rollbackCopy then safeLinks calls safety else partOf left.rollbackCopied (safeLinks calls safety) := by
  have hEmpty : (if calls.rollbackRemove then ∅ else tree.keep fun path _ => !left.rollbackRemoved path) = ∅ := by
    rw [hRemoved]
    split
    · rfl
    · exact Store.keep_false tree
  unfold rollbackStage2
  dsimp only
  rw [hEmpty, Store.above_empty]

theorem safe_of_safe_twice (h : safeLinks calls (safeLinks calls publicDir) = publicDir) : safeLinks calls publicDir = publicDir := by
  unfold safeLinks at h ⊢
  rw [Store.keep_eq_self_iff]
  intro path node hNode
  rw [← h, Store.get_keep] at hNode
  exact (Option.filter_eq_some_iff.mp hNode).2

section Needed

variable (hTruth : ∀ left, FilesUndone opts calls left publicDir (importFiles reads opts calls left publicDir) ∧
  FilesTruth reads publicDir (importFiles reads opts calls left publicDir))

include hTruth

/-- What a rollback leaves is the directory, unless the copy is. -/
theorem kept_of_truth (left : FilesLeftovers) :
    rollbackStage2 calls left (safeLinks calls publicDir) (inFront calls left publicDir) = publicDir ∨
      copyLeft opts calls left (safeLinks calls publicDir) = some publicDir := by
  obtain ⟨hUndone, hKept⟩ := hTruth left
  rw [← hUndone.tree, ← hUndone.copy]
  exact hKept.kept hUndone.failed

theorem safe_of_truth : safeLinks calls publicDir = publicDir := by
  rcases kept_of_truth hTruth nothingLeft with hTree | hCopy
  · rw [rollbackStage2_removed rfl] at hTree
    apply safe_of_safe_twice
    split at hTree
    · exact hTree
    · exact (Store.keep_true _).symm.trans hTree
  · unfold copyLeft at hCopy
    split at hCopy
    · exact Option.some.inj hCopy
    split at hCopy
    · cases hCopy
    · exact Option.some.inj hCopy

theorem rollbackStage2_of_truth (left : FilesLeftovers) (hKeep : opts.keepStaging = false) (hSpared : left.stagingSpared = false) :
    rollbackStage2 calls left publicDir (inFront calls left publicDir) = publicDir := by
  have hKept := kept_of_truth hTruth left
  rw [safe_of_truth hTruth, copyLeft, hKeep, hSpared] at hKept
  exact hKept.resolve_right (by simp)

/-- A rollback that cannot take the new files away leaves one of them. -/
theorem remove_of_truth (hKeep : opts.keepStaging = false) :
    calls.rollbackRemove = true ∨ (calls.extracted && calls.clean) = false := by
  by_contra hNot
  rw [not_or, Bool.not_eq_true, Bool.not_eq_false, Bool.and_eq_true] at hNot
  obtain ⟨hRemove, hExtracted, hClean⟩ := hNot
  obtain ⟨path, hPath, hNew⟩ := publicDir.exists_single_new (FileNode.file [])
  have hTree := rollbackStage2_of_truth hTruth
    { nothingLeft with source := Store.single path (.file []), rollbackRemoved := fun _ => false } hKeep rfl
  have hSafe := safe_of_truth hTruth
  have hSource : safeLinks calls (Store.single path (.file [])) = Store.single path (.file []) := by
    unfold safeLinks
    rw [Store.keep_eq_self_iff]
    intro other node hNode
    have hFile : node = .file [] := by
      by_cases hEq : other = path
      · rw [hEq, Store.get_single] at hNode
        exact (Option.some.inj hNode).symm
      · exact absurd hNode (by simp [Store.single, hEq])
    rw [hFile]
  have hFront : inFront calls { nothingLeft with source := Store.single path (.file []), rollbackRemoved := fun _ => false } publicDir =
      Store.single path (.file []) := by
    unfold inFront putInPlace
    rw [hExtracted, hClean, hSource]
    simp only [if_true]
    split
    · rfl
    · exact Store.keep_true _
  unfold rollbackStage2 at hTree
  dsimp only at hTree
  rw [hFront, hRemove, hSafe] at hTree
  have hKept : ((Store.single path (FileNode.file [])).keep fun _ _ => !false) = Store.single path (.file []) := Store.keep_true _
  simp only [Bool.false_eq_true, if_false] at hTree
  rw [hKept] at hTree
  refine hNew _ ?_ hTree
  split
  · exact hPath
  · exact Store.get_keep_eq_none _ hPath

theorem copy_of_truth (hKeep : opts.keepStaging = false) : calls.rollbackCopy = true ∨ publicDir = ∅ := by
  by_contra hNot
  rw [not_or, Bool.not_eq_true] at hNot
  have hTree := rollbackStage2_of_truth hTruth { nothingLeft with rollbackCopied := fun _ => false } hKeep rfl
  rw [rollbackStage2_removed rfl, hNot.1] at hTree
  refine hNot.2 (hTree.symm.trans ?_)
  exact Store.keep_false _

end Needed

/-! ## The import -/

theorem atStage_of_prepareFiles {prepared : FilesPrepared} (h : prepareFiles reads opts calls = .ok prepared) :
    AtStage reads opts 1 := by
  unfold prepareFiles at h
  dsimp only at h
  split at h
  · cases h
  split at h
  · cases h
  next hImport => exact atStage_of_inspect.1 (by simpa using hImport)

/-- The import of the files is truthful, whatever the commands leave, exactly on this
condition. -/
theorem importFiles_truth_iff :
    (∀ left, FilesTruth reads publicDir (importFiles reads opts calls left publicDir)) ↔
      FilesRecoverable reads opts calls publicDir := by
  constructor
  · intro hTruth prepared hPrepared hBegins
    cases hDone : calls.extracted && calls.replaced with
    | true =>
        obtain ⟨hSuccess, hMarker⟩ := importFiles_done hPrepared nothingLeft publicDir hBegins hDone
        have hAdvanced := (hTruth nothingLeft).advanced hSuccess
        rw [hMarker] at hAdvanced
        rw [if_pos rfl, ← Bool.and_eq_true]
        by_contra hNot
        rw [if_neg hNot] at hAdvanced
        exact not_advancedByOne _ hAdvanced
    | false =>
        have hUndone := fun left => And.intro (importFiles_undone hPrepared left publicDir hBegins hDone) (hTruth left)
        rw [if_neg Bool.false_ne_true]
        refine ⟨safe_of_truth hUndone, ?_⟩
        cases hKeep : opts.keepStaging with
        | true => exact Or.inl rfl
        | false => exact Or.inr ⟨remove_of_truth hUndone hKeep, copy_of_truth hUndone hKeep⟩
  · intro hCondition left
    cases hPrepared : prepareFiles reads opts calls with
    | error errors =>
        have hRun : importFiles reads opts calls left publicDir = ({ errors := errors }, ⟨publicDir, reads.marker, none⟩) := by
          rw [importFiles, hPrepared]
        rw [hRun]
        exact ⟨fun _ => Or.inl rfl, fun h => absurd h Bool.false_ne_true⟩
    | ok prepared =>
        cases hBegins : calls.begins with
        | false =>
            obtain ⟨errors, safety, hErrors, hCopy⟩ :=
              copyFilesToPublic_of_not_begins left prepared.webRootType publicDir hBegins
            have hRun : importFiles reads opts calls left publicDir =
                ({ errors := errors }, cleanupFiles opts calls left ⟨publicDir, reads.marker, safety⟩) := by
              unfold importFiles
              rw [hPrepared]
              dsimp only
              rw [hCopy]
              dsimp only
              rw [if_pos hErrors]
            rw [hRun]
            exact ⟨fun _ => Or.inl (cleanupFiles_publicDir _), fun h => absurd h Bool.false_ne_true⟩
        | true =>
            have hHolds := hCondition prepared hPrepared hBegins
            cases hDone : calls.extracted && calls.replaced with
            | true =>
                rw [hDone, if_pos rfl] at hHolds
                obtain ⟨hSuccess, hMarker⟩ := importFiles_done hPrepared left publicDir hBegins hDone
                rw [hHolds.1, hHolds.2] at hMarker
                refine ⟨fun hFailed => ?_, fun _ => ?_⟩
                · rw [hSuccess] at hFailed
                  cases hFailed
                · rw [hMarker]
                  exact advancedByOne_of_atStage (atStage_of_prepareFiles hPrepared) rfl rfl rfl
            | false =>
                rw [hDone, if_neg Bool.false_ne_true] at hHolds
                obtain ⟨hSafe, hBack⟩ := hHolds
                have hUndone := importFiles_undone hPrepared left publicDir hBegins hDone
                refine ⟨fun _ => ?_, fun hSuccess => ?_⟩
                · rcases hBack with hKeep | ⟨hRemove, hCopy⟩
                  · refine Or.inr ?_
                    rw [hUndone.copy, copyLeft, if_pos hKeep, hSafe]
                  · refine Or.inl ?_
                    rw [hUndone.tree, rollbackStage2_eq hSafe hRemove hCopy]
                · rw [hUndone.failed] at hSuccess
                  cases hSuccess

end Files

end ContainerCP.Migration
