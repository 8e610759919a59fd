import ContainerCP.Wordpress.AtomicWriter

/-! The configuration is replaced whole: whichever calls fail, the path holds the old
file, or the new content with the old mode where the result says so. This takes a read
that gives the whole file, and a mode that the calls of the writer keep. -/
namespace ContainerCP.Wordpress

open Control Posix

/-! ## The path that is taken -/

/-- A name that stays in a normal form. -/
def IsPlainName (name : Name) : Prop := name ≠ dot ∧ name ≠ dotDot

theorem isPlainName_of_mem_foldl {names start : List Name} {name : Name} (hStart : ∀ n ∈ start, IsPlainName n)
    (h : name ∈ names.foldl pushName start) : IsPlainName name := by
  induction names generalizing start with
  | nil => exact hStart name h
  | cons first rest ih =>
      refine ih ?_ h
      intro n hn
      rw [pushName] at hn
      split at hn
      · exact hStart n hn
      · next hDot =>
        split at hn
        · exact hStart n (List.mem_of_mem_dropLast hn)
        · next hDotDot =>
          obtain hOld | hNew := List.mem_append.mp hn
          · exact hStart n hOld
          · rw [List.mem_singleton.mp hNew]
            exact ⟨hDot, hDotDot⟩

theorem foldl_pushName_of_plain {names start : List Name} (h : ∀ name ∈ names, IsPlainName name) :
    names.foldl pushName start = start ++ names := by
  induction names generalizing start with
  | nil => simp
  | cons first rest ih =>
      obtain ⟨hDot, hDotDot⟩ := h first List.mem_cons_self
      rw [List.foldl_cons, pushName, if_neg hDot, if_neg hDotDot, ih fun name hName => h name (List.mem_cons_of_mem _ hName),
        List.append_assoc, List.singleton_append]

theorem lexicallyNormal_names_idempotent (names : List Name) (trailing trailing' : Bool) :
    (lexicallyNormal (lexicallyNormal names trailing).names trailing').names = (lexicallyNormal names trailing).names := by
  have hPlain : ∀ name ∈ names.foldl pushName [], IsPlainName name := by
    intro name hName
    exact isPlainName_of_mem_foldl (fun n hn => absurd hn List.not_mem_nil) hName
  simp only [lexicallyNormal]
  rw [foldl_pushName_of_plain hPlain, List.nil_append]

/-- A path that was taken once is taken for itself. -/
theorem candidate_toFsPath_names (root root' : NormalPath) (configPath : FsPath) :
    (candidate root' (candidate root configPath).toFsPath).names = (candidate root configPath).names := by
  rw [candidate.eq_def root', NormalPath.toFsPath, if_pos rfl, candidate]
  split
  · exact lexicallyNormal_names_idempotent _ _ _
  · exact lexicallyNormal_names_idempotent _ _ _

/-- The root of the site that the caller names. -/
def rootPath (currentPath : Option Path) (siteRoot : FsPath) : NormalPath :=
  (absolute currentPath siteRoot).getD ⟨[], false⟩

/-- The path of the configuration that the caller names. -/
def targetPath (currentPath : Option Path) (siteRoot configPath : FsPath) : NormalPath :=
  candidate (rootPath currentPath siteRoot) configPath

section Inspection

variable {start : Tree} {α : Type}

theorem spec_from {P : Tree → Prop} {procedure : Process α} {post : α → Tree → Prop} (hPre : ∀ tree, P tree → tree = start)
    (h : Spec (· = start) procedure post anyExit) : Spec P procedure post anyExit :=
  h.consequence hPre (fun _ _ hPost => hPost) fun _ _ hExit => hExit

/-- A procedure that only looks. -/
abbrev Looks (start : Tree) (procedure : Process α) : Prop :=
  Spec (· = start) procedure (fun _ tree => tree = start) anyExit

theorem looks_observe (verdict : Verdict) (look : Tree → α) (failure : α) : Looks start (observe verdict look failure) :=
  spec_observe (fun _ _ => trivial) (fun _ h => h) fun _ h => h

theorem looks_inspectParts (stats : Nat → Verdict) (round : Nat) (current : Path) (parts : List Name) :
    Looks start (inspectParts stats round current parts) := by
  induction parts generalizing round current with
  | nil => exact Spec.pure fun _ h => h
  | cons part rest ih =>
      refine Spec.bind _ (looks_observe _ _ _) fun status => ?_
      match status with
      | none => exact Spec.branch (fun _ => Spec.pure fun _ h => h) fun _ => Spec.pure fun _ h => h
      | some (.link _) => exact Spec.pure fun _ h => h
      | some .directory => exact Spec.branch (fun _ => Spec.pure fun _ h => h) fun _ => ih (round + 1) (current ++ [part])
      | some (.file _) => exact Spec.branch (fun _ => Spec.pure fun _ h => h) fun _ => Spec.pure fun _ h => h

/-- What an inspection says that takes a path. -/
def Takes (start : Tree) (root config : NormalPath) (safety : ConfigPathSafety) (tree : Tree) : Prop :=
  tree = start ∧ ∀ taken path, safety = .safe taken path → taken = root ∧ path = config

theorem spec_inspectTree (oracle : InspectOracle) (root config : NormalPath) :
    Spec (· = start) (inspectTree oracle root config) (Takes start root config) anyExit := by
  have hRejected : ∀ code message, Spec (· = start) (pure (.rejected code message) : Process ConfigPathSafety)
      (Takes start root config) anyExit := fun code message => Spec.pure fun _ h => ⟨h, by simp⟩
  have hSafe : Spec (· = start) (pure (.safe root config) : Process ConfigPathSafety) (Takes start root config) anyExit := by
    refine Spec.pure fun _ h => ⟨h, ?_⟩
    intro _ _ hTaken
    injection hTaken with hRoot hConfig
    exact ⟨hRoot.symm, hConfig.symm⟩
  refine Spec.bind _ (looks_observe _ _ _) fun status => ?_
  match status with
  | none => exact hRejected _ _
  | some (.link _) => exact hRejected _ _
  | some (.file _) => exact hRejected _ _
  | some .directory =>
      refine Spec.branch (fun _ => ?_) fun _ => ?_
      · refine Spec.bind _ (looks_observe _ _ _) fun status => ?_
        exact Spec.branch (fun _ => hSafe) fun _ => hRejected _ _
      · refine Spec.bind _ (looks_inspectParts _ _ _ _) fun problem => ?_
        match problem with
        | none => exact hSafe
        | some (code, message) => exact hRejected code message

theorem spec_inspectConfigPath (oracle : InspectOracle) (siteRoot configPath : FsPath) :
    Spec (· = start) (inspectConfigPath oracle siteRoot configPath)
      (Takes start (rootPath oracle.currentPath siteRoot) (targetPath oracle.currentPath siteRoot configPath)) anyExit := by
  have hRejected : ∀ code message, Spec (· = start) (pure (.rejected code message) : Process ConfigPathSafety)
      (Takes start (rootPath oracle.currentPath siteRoot) (targetPath oracle.currentPath siteRoot configPath)) anyExit :=
    fun code message => Spec.pure fun _ h => ⟨h, by simp⟩
  rw [inspectConfigPath]
  refine Spec.branch (fun _ => hRejected _ _) fun _ => Spec.branch (fun _ => hRejected _ _) fun _ => ?_
  rw [targetPath, rootPath] at hRejected ⊢
  cases hRoot : absolute oracle.currentPath siteRoot with
  | none =>
      rw [hRoot] at hRejected
      exact hRejected _ _
  | some root =>
      rw [hRoot] at hRejected
      refine Spec.branch (fun _ => hRejected _ _) fun _ => Spec.branch (fun _ => hRejected _ _) fun _ => ?_
      exact spec_inspectTree oracle root (candidate root configPath)

/-! ### Trees that look alike -/

/-- Nodes of the same kind: files may differ. -/
def SameKind (node node' : Option Node) : Prop := node = node' ∨ isRegular node = true ∧ isRegular node' = true

/-- Trees that differ in what their files hold. -/
structure TreesAlike (start tree : Tree) : Prop where
  lstat : ∀ path, SameKind (start.lstat path) (tree.lstat path)
  resolve : ∀ path, (tree.resolve path).filter tree.isDirectory = (start.resolve path).filter start.isDirectory

theorem Swapped.treesAlike {found : Path} {file : File} {tree : Tree} (h : Swapped start found file tree) : TreesAlike start tree where
  lstat := by
    intro path
    by_cases hBelow : path = []
    · exact .inl (by rw [Tree.lstat, Tree.lstat, if_pos hBelow, if_pos hBelow])
    · rw [Tree.lstat, Tree.lstat, if_neg hBelow, if_neg hBelow, h.locate]
      cases start.locate path with
      | none => exact .inl rfl
      | some place =>
          rw [Option.bind_some, Option.bind_some]
          by_cases hPlace : place = found
          · obtain ⟨old, hOld⟩ := h.old
            exact .inr (by rw [hPlace, hOld, h.held]; exact ⟨rfl, rfl⟩)
          · exact .inl (h.agrees place hPlace).symm
  resolve := Tree.resolve_directory_congr h.agrees h.below (.inr h.old) (.inr ⟨file, h.held⟩)

/-- A procedure that looks, and gives the same on both trees. -/
def Carries (start tree : Tree) (procedure : Process α) : Prop :=
  ∀ result, Returns procedure start result start → Returns procedure tree result tree

section Carries

variable {tree : Tree}

theorem Carries.pure (value : α) : Carries start tree (pure value) := by
  intro result h
  rw [(Returns.pure_iff.mp h).1]
  rfl

theorem Carries.branch {condition : Prop} [Decidable condition] {first second : Process α} (hFirst : Carries start tree first)
    (hSecond : Carries start tree second) : Carries start tree (if condition then first else second) := by
  split
  · exact hFirst
  · exact hSecond

theorem Carries.bind {β : Type} {procedure : Process α} {next : α → Process β} (hLooks : Looks start procedure)
    (hFirst : Carries start tree procedure) (hNext : ∀ value, Carries start tree (next value)) :
    Carries start tree (procedure >>= next) := by
  intro result h
  obtain ⟨value, middle, hRun, hRest⟩ := Returns.bind_iff.mp h
  have hSame := hLooks start rfl
  rw [show procedure start = _ from hRun] at hSame
  obtain rfl : middle = start := hSame
  exact Returns.bind_iff.mpr ⟨value, tree, hFirst value hRun, hNext value result hRest⟩

/-- What follows a look at a node does not ask what a file holds. -/
theorem Carries.observe {verdict : Verdict} {look : Tree → Option Node} {next : Option Node → Process α}
    (hLook : SameKind (look start) (look tree)) (hFile : ∀ file file', next (some (.file file)) = next (some (.file file')))
    (hNext : ∀ status, Carries start tree (next status)) : Carries start tree (observe verdict look none >>= next) := by
  intro result h
  obtain ⟨status, middle, hRun, hRest⟩ := Returns.bind_iff.mp h
  obtain ⟨rfl, ⟨rfl, rfl⟩ | ⟨rfl, rfl⟩⟩ := returns_observe hRun
  · refine Returns.bind_iff.mpr ⟨look tree, tree, rfl, ?_⟩
    obtain hSame | ⟨hOld, hNew⟩ := hLook
    · exact hSame ▸ hNext _ result hRest
    · match hFirst : look middle, hSecond : look tree with
      | some (.file file), some (.file file') =>
          rw [hFirst, hFile file file'] at hRest
          exact hNext _ result hRest
      | none, _ | some .directory, _ | some (.link _), _ => simp [hFirst, isRegular] at hOld
      | some (.file _), none | some (.file _), some .directory | some (.file _), some (.link _) =>
          simp [hSecond, isRegular] at hNew
  · exact Returns.bind_iff.mpr ⟨none, tree, rfl, hNext none result hRest⟩

theorem carries_inspectParts (h : TreesAlike start tree) (stats : Nat → Verdict) (round : Nat) (current : Path) (parts : List Name) :
    Carries start tree (inspectParts stats round current parts) := by
  induction parts generalizing round current with
  | nil => exact Carries.pure none
  | cons part rest ih =>
      refine Carries.observe (h.lstat _) (fun _ _ => rfl) fun status => ?_
      match status with
      | none => exact Carries.branch (Carries.pure _) (Carries.pure _)
      | some (.link _) => exact Carries.pure _
      | some .directory => exact Carries.branch (Carries.pure _) (ih (round + 1) (current ++ [part]))
      | some (.file _) => exact Carries.branch (Carries.pure _) (Carries.pure _)

theorem sameKind_symlinkStatus (h : TreesAlike start tree) (path : NormalPath) :
    SameKind (symlinkStatus start path) (symlinkStatus tree path) := by
  have hDirectory : ∀ t : Tree, (t.resolve path.names).bind (fun place => if t.isDirectory place then some .directory else none) =
      ((t.resolve path.names).filter t.isDirectory).map fun _ => Node.directory := by
    intro t
    cases t.resolve path.names with
    | none => rfl
    | some place => by_cases hPlace : t.isDirectory place = true <;> simp [Option.filter, hPlace]
  rw [symlinkStatus, symlinkStatus]
  split
  · rw [hDirectory, hDirectory, h.resolve]
    exact .inl rfl
  · exact h.lstat _

theorem carries_inspectTree (h : TreesAlike start tree) (oracle : InspectOracle) (root config : NormalPath) :
    Carries start tree (inspectTree oracle root config) := by
  refine Carries.observe (sameKind_symlinkStatus h _) (fun _ _ => rfl) fun status => ?_
  match status with
  | none => exact Carries.pure _
  | some (.link _) => exact Carries.pure _
  | some (.file _) => exact Carries.pure _
  | some .directory =>
      refine Carries.branch ?_ ?_
      · exact Carries.observe (sameKind_symlinkStatus h _) (fun _ _ => rfl) fun _ =>
          Carries.branch (Carries.pure _) (Carries.pure _)
      · refine Carries.bind (looks_inspectParts _ _ _ _) (carries_inspectParts h _ _ _ _) fun problem => ?_
        match problem with
        | none => exact Carries.pure _
        | some (_, _) => exact Carries.pure _

theorem lexicallyNormal_again (names : List Name) (trailing : Bool) :
    lexicallyNormal (lexicallyNormal names trailing).names (lexicallyNormal names trailing).trailing =
      lexicallyNormal names trailing := by
  have hPlain : ∀ name ∈ (lexicallyNormal names trailing).names, IsPlainName name := fun name hName =>
    isPlainName_of_mem_foldl (fun n hn => absurd hn List.not_mem_nil) hName
  have hLast : ∀ name, ¬IsPlainName name → (lexicallyNormal names trailing).names.getLast? ≠ some name :=
    fun name hName hLast => hName (hPlain name (List.mem_of_getLast? hLast))
  have hDot := hLast dot fun hName => hName.1 rfl
  have hDotDot := hLast dotDot fun hName => hName.2 rfl
  have hNames := lexicallyNormal_names_idempotent names trailing (lexicallyNormal names trailing).trailing
  rw [lexicallyNormal.eq_def (lexicallyNormal names trailing).names] at hNames ⊢
  rw [NormalPath.mk.injEq]
  exact ⟨hNames, by simp [hDot, hDotDot]⟩

/-- A path that an inspection took is taken for itself on a tree that looks alike. -/
theorem inspectConfigPath_again (hAlike : TreesAlike start tree) {oracle : InspectOracle} {siteRoot configPath : FsPath}
    {root config : NormalPath} (h : Returns (inspectConfigPath oracle siteRoot configPath) start (.safe root config) start) :
    Returns (inspectConfigPath oracle root.toFsPath config.toFsPath) tree (.safe root config) tree := by
  have hRejected : ∀ {code message : Bytes},
      ¬Returns (pure (.rejected code message) : Process ConfigPathSafety) start (.safe root config) start :=
    fun hRun => absurd (Returns.pure_iff.mp hRun).1 (by simp)
  rw [inspectConfigPath] at h
  split at h
  · exact absurd h hRejected
  split at h
  · exact absurd h hRejected
  split at h
  · exact absurd h hRejected
  next taken hRoot =>
  simp only at h
  split at h
  · exact absurd h hRejected
  split at h
  · exact absurd h hRejected
  next hName hPrefix =>
  have hTaken := spec_inspectTree oracle taken (candidate taken configPath) start rfl
  rw [show inspectTree oracle taken (candidate taken configPath) start = _ from h] at hTaken
  obtain ⟨rfl, rfl⟩ := hTaken.2 root config rfl
  have hAbsolute : absolute oracle.currentPath root.toFsPath = some root := by
    have hNormal : ∃ names trailing, root = lexicallyNormal names trailing := by
      rw [absolute] at hRoot
      split at hRoot
      · exact ⟨_, _, (Option.some.inj hRoot).symm⟩
      · obtain ⟨directory, -, hEq⟩ := Option.map_eq_some_iff.mp hRoot
        exact ⟨_, _, hEq.symm⟩
    obtain ⟨names, trailing, rfl⟩ := hNormal
    exact congrArg some (lexicallyNormal_again names trailing)
  have hCandidate : candidate root (candidate root configPath).toFsPath = candidate root configPath := by
    rw [candidate, NormalPath.toFsPath, if_pos rfl, candidate]
    split <;> exact lexicallyNormal_again _ _
  rw [inspectConfigPath, if_neg (by simp [FsPath.isEmpty, NormalPath.toFsPath]),
    if_neg (by simp [FsPath.isEmpty, NormalPath.toFsPath]), hAbsolute]
  simp only [hCandidate]
  rw [if_neg hName, if_neg hPrefix]
  exact carries_inspectTree hAlike oracle root _ _ h

end Carries

end Inspection

/-! ## The update -/

section Update

variable {start : Tree} {caller : Caller} {oracle : UpdateOracle} {updates : List WordPressConfigFieldUpdate}

/-- What `update_file_atomic` leaves at the path, in terms of what its read gave. -/
def Updated (caller : Caller) (oracle : UpdateOracle) (updates : List WordPressConfigFieldUpdate) (start : Tree)
    (config : NormalPath) (result : WordPressConfigFileUpdateResult) (tree : Tree) : Prop :=
  match result with
  | .failure _ _ => tree.lstat config.names = start.lstat config.names
  | .ok _ rollback =>
      ∃ file rendered root, start.lstat config.names = some (.file file) ∧
        renderUpdates (deliver oracle.delivered file.content) updates = .ok rendered ∧
          tree.lstat config.names = some (.file ⟨rendered, caller.finalMode file.mode⟩) ∧
            rollback = some ⟨root, config, deliver oracle.delivered file.content, file.mode⟩

theorem spec_updateInspected (root config : NormalPath) :
    Spec (· = start) (updateInspected caller oracle root config updates) (Updated caller oracle updates start config)
      anyExit := by
  have hFailure : ∀ code message,
      Spec (· = start) (pure (.failure code message) : Process WordPressConfigFileUpdateResult)
        (Updated caller oracle updates start config) anyExit :=
    fun code message => Spec.pure fun tree h => congrArg (Tree.lstat · config.names) h
  refine Spec.bind (fun metadata tree => tree = start ∧ ∀ node, metadata = some node → start.lstat config.names = some node)
    ?_ fun metadata => ?_
  · refine spec_observe (fun _ _ => trivial) (fun tree h => ⟨h, by simp⟩) ?_
    rintro tree rfl
    exact ⟨rfl, fun node hNode => hNode⟩
  refine Spec.given (fun tree h => h.2) fun hMetadata => ?_
  refine spec_from (fun _ h => h.1) ?_
  match metadata with
  | none => exact hFailure _ _
  | some .directory => exact hFailure _ _
  | some (.link _) => exact hFailure _ _
  | some (.file file) =>
      have hFile := hMetadata _ rfl
      refine Spec.bind (fun content tree => tree = start ∧
        ∀ current, content = some current → current = deliver oracle.delivered file.content) ?_ fun content => ?_
      · refine spec_observe (fun _ _ => trivial) (fun tree h => ⟨h, by simp⟩) ?_
        rintro tree rfl
        refine ⟨rfl, fun current hCurrent => ?_⟩
        rw [Tree.read_of_lstat hFile, Option.map_some] at hCurrent
        exact (Option.some.inj hCurrent).symm
      refine Spec.given (fun tree h => h.2) fun hContent => ?_
      refine spec_from (fun _ h => h.1) ?_
      match content with
      | none => exact hFailure _ _
      | some current =>
          obtain rfl := hContent current rfl
          cases hRendered : renderUpdates (deliver oracle.delivered file.content) updates with
          | failure code message =>
              simp only [hRendered]
              exact hFailure code message
          | ok rendered =>
              simp only [hRendered]
              refine Spec.bind _
                (spec_writeAtomicPreservingMetadata caller oracle.replaces start config.names rendered file.mode)
                fun problem => ?_
              match problem with
              | some code => exact Spec.pure fun tree h => h
              | none => exact Spec.pure fun tree h => ⟨file, rendered, root, hFile, hRendered, h, rfl⟩

theorem spec_updateFileAtomic (siteRoot configPath : FsPath) :
    Spec (· = start) (updateFileAtomic caller oracle siteRoot configPath updates)
      (Updated caller oracle updates start (targetPath oracle.inspects.currentPath siteRoot configPath)) anyExit := by
  rw [updateFileAtomic]
  refine Spec.branch (fun _ => Spec.pure fun tree h => congrArg (Tree.lstat · _) h) fun _ => ?_
  refine Spec.bind _ (spec_inspectConfigPath oracle.inspects siteRoot configPath) fun safety => ?_
  match safety with
  | .rejected code message => exact Spec.pure fun tree h => congrArg (Tree.lstat · _) h.1
  | .safe root config =>
      refine Spec.given (fun tree h => (h.2 root config rfl).2) ?_
      rintro rfl
      refine spec_from (fun _ h => h.1) ?_
      exact spec_updateInspected root _

/-- What `rollback_file` leaves at the path of its handle. -/
theorem spec_rollbackFile (back : RollbackOracle) (root base : NormalPath) (configPath : FsPath) (content : Bytes)
    (mode : Nat) :
    Spec (· = start) (rollbackFile caller back (some ⟨root, candidate base configPath, content, mode⟩))
      (fun result tree =>
        if result.success then
          tree.lstat (candidate base configPath).names = some (.file ⟨content, caller.finalMode mode⟩)
        else tree.lstat (candidate base configPath).names = start.lstat (candidate base configPath).names)
      anyExit := by
  refine Spec.bind _ (spec_inspectConfigPath back.inspects _ _) fun safety => ?_
  match safety with
  | .rejected code message => exact Spec.pure fun tree h => congrArg (Tree.lstat · _) h.1
  | .safe root' config =>
      refine Spec.given (fun tree h => (h.2 root' config rfl).2) fun hConfig => ?_
      have hNames : config.names = (candidate base configPath).names := by
        rw [hConfig, targetPath]
        exact candidate_toFsPath_names base _ configPath
      refine spec_from (fun _ h => h.1) ?_
      refine Spec.bind _ (spec_writeAtomicPreservingMetadata caller back.replaces start config.names content mode)
        fun problem => ?_
      rw [hNames]
      match problem with
      | some code => exact Spec.pure fun tree h => h
      | none => exact Spec.pure fun tree h => h

theorem spec_undoUpdate (back : RollbackOracle) (root base : NormalPath) (configPath : FsPath) (content : Bytes)
    (mode : Nat) {post : WordPressConfigFileUpdateResult → Tree → Prop}
    (hUndone : ∀ tree, tree.lstat (candidate base configPath).names = some (.file ⟨content, caller.finalMode mode⟩) →
      post (.failure (bytes "syntax_validation_failed") (bytes "WordPress config validation failed and rollback completed"))
        tree)
    (hStays : ∀ tree, tree.lstat (candidate base configPath).names = start.lstat (candidate base configPath).names →
      post (.failure (bytes "validation_failed_rollback_failed")
        (bytes "WordPress config validation failed and automatic rollback did not complete")) tree) :
    Spec (· = start) (undoUpdate caller back (some ⟨root, candidate base configPath, content, mode⟩)) post anyExit := by
  refine Spec.bind _ (spec_rollbackFile back root base configPath content mode) fun result => ?_
  refine Spec.branch (fun hSuccess => Spec.pure fun tree h => ?_) fun hFailed => Spec.pure fun tree h => ?_
  · rw [if_pos hSuccess] at h
    exact hUndone tree h
  · rw [if_neg hFailed] at h
    exact hStays tree h

/-- The path holds what the update makes of the whole old content, with the old mode. -/
def HoldsNew (updates : List WordPressConfigFieldUpdate) (config : Path) (before after : Tree) : Prop :=
  ∃ old new mode, before.lstat config = some (.file ⟨old, mode⟩) ∧ renderUpdates old updates = .ok new ∧
    after.lstat config = some (.file ⟨new, mode⟩)

/-- The configuration was replaced whole or not at all, and the result says which: new
after a success, and otherwise old, but for the one failure that says that the rollback
failed. -/
def Replaced (updates : List WordPressConfigFieldUpdate) (config : Path) (before after : Tree) :
    WordPressConfigFileUpdateResult → Prop
  | .ok _ _ => HoldsNew updates config before after
  | .failure code _ =>
      after.lstat config = before.lstat config ∨
        code = bytes "validation_failed_rollback_failed" ∧ HoldsNew updates config before after

/-- The read gives all of the file, and the calls that set the mode keep it. -/
structure Faithful (caller : Caller) (oracle : UpdateOracle) (file : File) : Prop where
  content : deliver oracle.delivered file.content = file.content
  mode : caller.finalMode file.mode = file.mode

variable {siteRoot configPath : FsPath}

theorem Updated.holdsNew {config : NormalPath} {message : Bytes} {rollback : Option WordPressConfigRollbackHandle}
    {tree : Tree} (hFaithful : ∀ file, start.lstat config.names = some (.file file) → Faithful caller oracle file)
    (h : Updated caller oracle updates start config (.ok message rollback) tree) :
    HoldsNew updates config.names start tree := by
  obtain ⟨file, rendered, root, hFile, hRendered, hTree, -⟩ := h
  obtain ⟨hContent, hMode⟩ := hFaithful file hFile
  rw [hContent] at hRendered
  rw [hMode] at hTree
  exact ⟨file.content, rendered, file.mode, hFile, hRendered, hTree⟩

theorem spec_updateFileAtomic_replaced (updates : List WordPressConfigFieldUpdate)
    (hFaithful : ∀ file,
      start.lstat (targetPath oracle.inspects.currentPath siteRoot configPath).names = some (.file file) →
        Faithful caller oracle file) :
    Spec (· = start) (updateFileAtomic caller oracle siteRoot configPath updates)
      (fun result tree =>
        Replaced updates (targetPath oracle.inspects.currentPath siteRoot configPath).names start tree result)
      anyExit := by
  refine (spec_updateFileAtomic siteRoot configPath).consequence (fun _ h => h) (fun result tree h => ?_) fun _ _ h => h
  cases result with
  | ok message rollback => exact h.holdsNew hFaithful
  | failure code message => exact .inl h

theorem spec_updateFileAtomicValidated_replaced (updates : List WordPressConfigFieldUpdate) (back : RollbackOracle) (validator : Option Bool)
    (hFaithful : ∀ file,
      start.lstat (targetPath oracle.inspects.currentPath siteRoot configPath).names = some (.file file) →
        Faithful caller oracle file) :
    Spec (· = start) (updateFileAtomicValidated caller oracle back validator siteRoot configPath updates)
      (fun result tree =>
        Replaced updates (targetPath oracle.inspects.currentPath siteRoot configPath).names start tree result)
      anyExit := by
  cases validator with
  | none => exact Spec.pure fun tree h => .inl (congrArg (Tree.lstat · _) h)
  | some valid =>
      refine Spec.bind _ (spec_updateFileAtomic siteRoot configPath) fun update => ?_
      cases update with
      | failure code message => exact Spec.pure fun tree h => .inl h
      | ok message rollback =>
          refine Spec.branch (fun _ => Spec.pure fun tree h => h.holdsNew hFaithful) fun _ => ?_
          -- the updated tree is where the rollback starts
          intro updated hUpdated
          have hNew := hUpdated.holdsNew hFaithful
          obtain ⟨file, rendered, root, hFile, hRendered, hTree, rfl⟩ := hUpdated
          obtain ⟨hContent, hMode⟩ := hFaithful file hFile
          refine spec_undoUpdate back root _ configPath _ _ (fun tree h => ?_) (fun tree h => ?_) updated rfl
          · rw [hContent, hMode] at h
            exact .inl (h.trans hFile.symm)
          · obtain ⟨old, new, mode, hOld, hUpdates, hUpdatedTree⟩ := hNew
            exact .inr ⟨rfl, old, new, mode, hOld, hUpdates, h.trans hUpdatedTree⟩

theorem replaced_of_faithful (caller : Caller) (oracle : UpdateOracle) (back : RollbackOracle) (validator : Option Bool)
    (siteRoot configPath : FsPath) (updates : List WordPressConfigFieldUpdate) (start : Tree)
    (hFaithful : ∀ file,
      start.lstat (targetPath oracle.inspects.currentPath siteRoot configPath).names = some (.file file) →
        Faithful caller oracle file) :
    (∀ result tree, updateFileAtomic caller oracle siteRoot configPath updates start = .ok result tree →
      Replaced updates (targetPath oracle.inspects.currentPath siteRoot configPath).names start tree result) ∧
    ∀ result tree,
      updateFileAtomicValidated caller oracle back validator siteRoot configPath updates start = .ok result tree →
        Replaced updates (targetPath oracle.inspects.currentPath siteRoot configPath).names start tree result := by
  constructor
  · intro result tree hRun
    have hSpec := spec_updateFileAtomic_replaced updates hFaithful start rfl
    rw [hRun] at hSpec
    exact hSpec
  · intro result tree hRun
    have hSpec := spec_updateFileAtomicValidated_replaced updates back validator hFaithful start rfl
    rw [hRun] at hSpec
    exact hSpec

/-- The update comes to its end: the inspection takes the path, a file stands there, and the
calls that follow work, up to the rename of what the updates make of the text that was read. -/
structure Completes (caller : Caller) (oracle : UpdateOracle) (siteRoot configPath : FsPath)
    (updates : List WordPressConfigFieldUpdate) (start : Tree) (file : File) : Prop where
  asked : updates ≠ []
  safe : Returns (inspectConfigPath oracle.inspects siteRoot configPath) start
    (.safe (rootPath oracle.inspects.currentPath siteRoot) (targetPath oracle.inspects.currentPath siteRoot configPath)) start
  stats : oracle.stats = .works
  opens : oracle.opens = .works
  regular : start.lstat (targetPath oracle.inspects.currentPath siteRoot configPath).names = some (.file file)
  lands : ∃ rendered, renderUpdates (deliver oracle.delivered file.content) updates = .ok rendered ∧
    Lands caller oracle.replaces start (targetPath oracle.inspects.currentPath siteRoot configPath).names rendered

variable {file : File} {found : Path}

theorem gives_updateFileAtomic (h : Completes caller oracle siteRoot configPath updates start file)
    (hFound : start.locate (targetPath oracle.inspects.currentPath siteRoot configPath).names = some found)
    (hOld : start.lookup found = some (.file file)) :
    ∃ rendered, Gives (· = start) (updateFileAtomic caller oracle siteRoot configPath updates)
      (.ok (bytes "WordPress config file updated atomically") (some ⟨rootPath oracle.inspects.currentPath siteRoot,
        targetPath oracle.inspects.currentPath siteRoot configPath, deliver oracle.delivered file.content, file.mode⟩))
      (Swapped start found ⟨rendered, caller.finalMode file.mode⟩) := by
  obtain ⟨rendered, hRendered, hLands⟩ := h.lands
  have hStat : Gives (· = start) (observe oracle.stats
      (·.lstat (targetPath oracle.inspects.currentPath siteRoot configPath).names) none) (some (.file file)) (· = start) := by
    refine gives_observe h.stats ?_
    rintro tree rfl
    exact h.regular
  have hRead : Gives (· = start) (readFile oracle.opens oracle.delivered
      (targetPath oracle.inspects.currentPath siteRoot configPath).names)
      (some (deliver oracle.delivered file.content)) (· = start) := by
    refine gives_observe h.opens ?_
    rintro tree rfl
    rw [Tree.read_of_lstat h.regular, Option.map_some]
  refine ⟨rendered, ?_⟩
  rw [updateFileAtomic, if_neg h.asked]
  refine Gives.bind _ (Gives.of_returns h.safe) ?_
  refine Gives.bind _ hStat ?_
  refine Gives.bind _ hRead ?_
  simp only [hRendered]
  exact Gives.bind _ (gives_writeAtomicPreservingMetadata hLands hFound hOld file.mode) (Gives.pure fun _ hSwapped => hSwapped)

theorem not_returns_failure {tree tree' : Tree} {code message message' : Bytes} {rollback : Option WordPressConfigRollbackHandle} :
    ¬Returns (pure (.failure code message) : Process WordPressConfigFileUpdateResult) tree (.ok message' rollback) tree' :=
  fun h => absurd (Returns.pure_iff.mp h).1 (by simp)

/-- An update that succeeds has come to its end. -/
theorem completes_of_returns {message : Bytes} {rollback : Option WordPressConfigRollbackHandle} {tree : Tree}
    (h : Returns (updateFileAtomic caller oracle siteRoot configPath updates) start (.ok message rollback) tree) :
    ∃ file, Completes caller oracle siteRoot configPath updates start file := by
  rw [updateFileAtomic] at h
  split at h
  · exact absurd h not_returns_failure
  next hUpdates =>
  obtain ⟨safety, inspected, hInspect, h⟩ := Returns.bind_iff.mp h
  have hTakes := spec_inspectConfigPath oracle.inspects siteRoot configPath start rfl
  rw [show inspectConfigPath oracle.inspects siteRoot configPath start = _ from hInspect] at hTakes
  obtain ⟨rfl, hPath⟩ := hTakes
  match safety with
  | .rejected code message => exact absurd h not_returns_failure
  | .safe root config =>
      obtain ⟨rfl, rfl⟩ := hPath root config rfl
      obtain ⟨metadata, looked, hStat, h⟩ := Returns.bind_iff.mp h
      obtain ⟨rfl, hMetadata⟩ := returns_observe hStat
      match metadata with
      | none | some .directory | some (.link _) => exact absurd h not_returns_failure
      | some (.file file) =>
          have hRegular : oracle.stats = .works ∧ looked.lstat
              (targetPath oracle.inspects.currentPath siteRoot configPath).names = some (.file file) := by
            obtain ⟨hWorks, hNode⟩ | ⟨-, hNone⟩ := hMetadata
            · exact ⟨hWorks, hNode.symm⟩
            · cases hNone
          obtain ⟨content, read, hRead, h⟩ := Returns.bind_iff.mp h
          obtain ⟨rfl, hContent⟩ := returns_observe hRead
          match content with
          | none => exact absurd h not_returns_failure
          | some current =>
              have hCurrent : oracle.opens = .works ∧ current = deliver oracle.delivered file.content := by
                obtain ⟨hWorks, hText⟩ | ⟨-, hNone⟩ := hContent
                · rw [Tree.read_of_lstat hRegular.2, Option.map_some] at hText
                  exact ⟨hWorks, Option.some.inj hText⟩
                · cases hNone
              obtain ⟨hOpens, rfl⟩ := hCurrent
              cases hRendered : renderUpdates (deliver oracle.delivered file.content) updates with
              | failure code message =>
                  simp only [hRendered] at h
                  exact absurd h not_returns_failure
              | ok rendered =>
                  simp only [hRendered] at h
                  obtain ⟨problem, replaced, hReplace, h⟩ := Returns.bind_iff.mp h
                  match problem with
                  | some code => exact absurd h not_returns_failure
                  | none => exact ⟨file, hUpdates, hInspect, hRegular.1, hOpens, hRegular.2, rendered, hRendered,
                      lands_of_returns hReplace⟩

/-- A rollback for which all calls work. -/
def smoothBack (oracle : UpdateOracle) : RollbackOracle :=
  ⟨oracle.inspects, { pid := oracle.replaces.pid, counter := oracle.replaces.counter, taken := fun _ => 1 }⟩

/-- With such a rollback the text that was read is put back. -/
theorem gives_rollbackFile {updated : Tree} {new : File} (h : Completes caller oracle siteRoot configPath updates start file)
    (hFound : start.locate (targetPath oracle.inspects.currentPath siteRoot configPath).names = some found)
    (hSwapped : Swapped start found new updated) (content : Bytes) (mode : Nat) :
    Gives (· = updated) (rollbackFile caller (smoothBack oracle)
      (some ⟨rootPath oracle.inspects.currentPath siteRoot, targetPath oracle.inspects.currentPath siteRoot configPath,
        content, mode⟩)) (.ok (bytes "WordPress config file rolled back atomically") none)
      (Swapped updated found ⟨content, caller.finalMode mode⟩) := by
  obtain ⟨rendered, -, hLands⟩ := h.lands
  obtain ⟨place, hTemp, hFree⟩ := hLands.free
  have hNe : place ≠ found := by
    rintro rfl
    exact locate_makeTempPath hTemp hFound
  have hBack : Lands caller (smoothBack oracle).replaces updated
      (targetPath oracle.inspects.currentPath siteRoot configPath).names content := by
    refine ⟨rfl, ⟨place, (hSwapped.locate _).trans hTemp, (hSwapped.agrees place hNe).trans hFree⟩, ?_, rfl, fun _ => rfl,
      rfl, rfl, rfl, rfl⟩
    exact ⟨content.length, by simp [smoothBack], fun _ _ => ⟨rfl, Nat.one_pos⟩⟩
  refine Gives.bind _ (Gives.of_returns (inspectConfigPath_again hSwapped.treesAlike h.safe)) ?_
  exact Gives.bind _ (gives_writeAtomicPreservingMetadata hBack ((hSwapped.locate _).trans hFound) hSwapped.held mode)
    (Gives.pure fun _ h => h)

/-- The validator may refuse the new file of an update that completes. The rollback then puts
back what was read, with the mode that is left. -/
theorem faithful_of_replaced (h : Completes caller oracle siteRoot configPath updates start file)
    (hValidated : ∀ back validator result tree,
      updateFileAtomicValidated caller oracle back validator siteRoot configPath updates start = .ok result tree →
        Replaced updates (targetPath oracle.inspects.currentPath siteRoot configPath).names start tree result) :
    Faithful caller oracle file := by
  obtain ⟨found, old, hFound, hOld⟩ := place_of_regular (by rw [h.regular, isRegular])
  obtain rfl : old = file := by
    have hNode := h.regular
    rw [Tree.lstat, hFound, Option.bind_some, hOld] at hNode
    split at hNode
    · cases hNode
    · simpa using hNode
  obtain ⟨rendered, hUpdate⟩ := gives_updateFileAtomic h hFound hOld
  obtain ⟨updated, hUpdated, hSwapped⟩ := hUpdate start rfl
  obtain ⟨restored, hRestored, hAgain⟩ :=
    gives_rollbackFile h hFound hSwapped (deliver oracle.delivered old.content) old.mode updated rfl
  have hUndone : Returns (updateFileAtomicValidated caller oracle (smoothBack oracle) (some false) siteRoot configPath updates)
      start (.failure (bytes "syntax_validation_failed") (bytes "WordPress config validation failed and rollback completed"))
      restored :=
    Returns.bind_iff.mpr ⟨_, updated, hUpdated, Returns.bind_iff.mpr ⟨_, restored, hRestored, rfl⟩⟩
  have hText := hAgain.lstat ((hSwapped.locate _).trans hFound)
  obtain hSame | ⟨hCode, -⟩ := hValidated _ _ _ _ hUndone
  · rw [hSame, h.regular] at hText
    have hFile : old = ⟨deliver oracle.delivered old.content, caller.finalMode old.mode⟩ := by simpa using hText
    exact ⟨(congrArg File.content hFile).symm, (congrArg File.mode hFile).symm⟩
  · exact absurd hCode (by decide)

/-- Whatever the validator and the rollback do, the file is replaced whole or not at all, and
the result says which, just where the update does not come to its end or the read was whole
and the mode is kept. -/
theorem update_replaces_whole_iff (caller : Caller) (oracle : UpdateOracle) (siteRoot configPath : FsPath)
    (updates : List WordPressConfigFieldUpdate) (start : Tree) :
    ((∀ result tree, updateFileAtomic caller oracle siteRoot configPath updates start = .ok result tree →
        Replaced updates (targetPath oracle.inspects.currentPath siteRoot configPath).names start tree result) ∧
      ∀ back validator result tree,
        updateFileAtomicValidated caller oracle back validator siteRoot configPath updates start = .ok result tree →
          Replaced updates (targetPath oracle.inspects.currentPath siteRoot configPath).names start tree result) ↔
      ∀ file, Completes caller oracle siteRoot configPath updates start file → Faithful caller oracle file := by
  constructor
  · rintro ⟨-, hValidated⟩ file h
    exact faithful_of_replaced h hValidated
  · intro hFaithful
    by_cases hEnds : ∃ file, Completes caller oracle siteRoot configPath updates start file
    · obtain ⟨file, h⟩ := hEnds
      have hTarget : ∀ other,
          start.lstat (targetPath oracle.inspects.currentPath siteRoot configPath).names = some (.file other) →
            Faithful caller oracle other := by
        intro other hOther
        obtain rfl : other = file := by simpa using hOther.symm.trans h.regular
        exact hFaithful other h
      exact ⟨(replaced_of_faithful caller oracle ⟨oracle.inspects, oracle.replaces⟩ none siteRoot configPath updates start hTarget).1,
        fun back validator => (replaced_of_faithful caller oracle back validator siteRoot configPath updates start hTarget).2⟩
    · -- without its end the update is a failure that leaves the path
      have hFails : ∀ result tree, Returns (updateFileAtomic caller oracle siteRoot configPath updates) start result tree →
          ∃ code message, result = .failure code message ∧
            tree.lstat (targetPath oracle.inspects.currentPath siteRoot configPath).names =
              start.lstat (targetPath oracle.inspects.currentPath siteRoot configPath).names := by
        intro result tree hRun
        have hSpec := @spec_updateFileAtomic start caller oracle updates siteRoot configPath start rfl
        rw [show updateFileAtomic caller oracle siteRoot configPath updates start = _ from hRun] at hSpec
        cases result with
        | ok message rollback => exact absurd (completes_of_returns hRun) hEnds
        | failure code message => exact ⟨code, message, rfl, hSpec⟩
      refine ⟨fun result tree hRun => ?_, fun back validator result tree hRun => ?_⟩
      · obtain ⟨code, message, rfl, hSame⟩ := hFails result tree hRun
        exact .inl hSame
      · cases validator with
        | none =>
            obtain ⟨rfl, rfl⟩ := Returns.pure_iff.mp hRun
            exact .inl rfl
        | some valid =>
            obtain ⟨update, updated, hUpdate, hRest⟩ := Returns.bind_iff.mp hRun
            obtain ⟨code, message, rfl, hSame⟩ := hFails update updated hUpdate
            obtain ⟨rfl, rfl⟩ := Returns.pure_iff.mp hRest
            exact .inl hSame

end Update

/-! ## A site with one file -/

def sampleContent : Bytes := bytes "define('DB_PASSWORD','a');\n$table_prefix='wp_';"

def sampleRoot : FsPath := ⟨true, [bytes "s"], false⟩

def sampleConfig : FsPath := ⟨false, [configFilename], false⟩

def sampleTree : Tree :=
  ((∅ : Tree).insert [bytes "s"] .directory).insert [bytes "s", configFilename] (.file ⟨sampleContent, 0o640⟩)

def sampleUpdates : List WordPressConfigFieldUpdate := [⟨.dbPassword, bytes "b"⟩]

/-- A read that gives some of the file, or all of it; all else works. -/
def sampleOracle (delivered : Option Nat) : UpdateOracle where
  delivered := delivered
  replaces := { pid := 1, counter := 1, taken := fun _ => 4096 }

def samplePath : Path := [bytes "s", configFilename]

/-- Whether a run returned a success, and what it left at the path. -/
def seen : EStateM.Result Interrupt Tree WordPressConfigFileUpdateResult → Option (Bool × Option Node)
  | .ok result tree => some (result.success, tree.lstat samplePath)
  | .error _ _ => none

theorem exists_of_seen {run : EStateM.Result Interrupt Tree WordPressConfigFileUpdateResult} {success : Bool}
    {node : Option Node} (h : seen run = some (success, node)) :
    ∃ result tree, run = .ok result tree ∧ result.success = success ∧ tree.lstat samplePath = node := by
  cases run with
  | ok result tree =>
      obtain ⟨hSuccess, hNode⟩ := Prod.mk.inj (Option.some.inj h)
      exact ⟨result, tree, rfl, hSuccess, hNode⟩
  | error => cases h

theorem lstat_sampleTree : sampleTree.lstat samplePath = some (.file ⟨sampleContent, 0o640⟩) := by rfl

theorem renderUpdates_sampleContent :
    renderUpdates sampleContent sampleUpdates = .ok (bytes "define('DB_PASSWORD','b');\n$table_prefix='wp_';") := by
  unfold sampleContent sampleUpdates
  repeat rw [bytes_ofList]
  decide +kernel

theorem targetPath_sample : (targetPath (some []) sampleRoot sampleConfig).names = samplePath := by rfl

/-- What a success leaves of the sample. -/
theorem lstat_of_replaced {message : Bytes} {rollback : Option WordPressConfigRollbackHandle} {tree : Tree}
    (h : Replaced sampleUpdates samplePath sampleTree tree (.ok message rollback)) :
    tree.lstat samplePath = some (.file ⟨bytes "define('DB_PASSWORD','b');\n$table_prefix='wp_';", 0o640⟩) := by
  obtain ⟨old, new, mode, hOld, hNew, hTree⟩ := h
  obtain ⟨rfl, rfl⟩ : sampleContent = old ∧ 0o640 = mode := by
    simpa using lstat_sampleTree.symm.trans hOld
  obtain rfl : bytes "define('DB_PASSWORD','b');\n$table_prefix='wp_';" = new := by
    simpa using renderUpdates_sampleContent.symm.trans hNew
  exact hTree

/-- A read that fails behind the first line cuts the file there, and the result is a
success. -/
theorem not_replaced_short_read :
    ¬∀ (caller : Caller) (oracle : UpdateOracle) (siteRoot configPath : FsPath)
      (updates : List WordPressConfigFieldUpdate) (start : Tree) (result : WordPressConfigFileUpdateResult) (tree : Tree),
      updateFileAtomic caller oracle siteRoot configPath updates start = .ok result tree →
        Replaced updates (targetPath oracle.inspects.currentPath siteRoot configPath).names start tree result := by
  intro hClaim
  have hSeen : seen (updateFileAtomic .root (sampleOracle (some 26)) sampleRoot sampleConfig sampleUpdates sampleTree) =
      some (true, some (.file ⟨bytes "define('DB_PASSWORD','b');", 0o640⟩)) := by decide +kernel
  obtain ⟨result, tree, hRun, hSuccess, hNode⟩ := exists_of_seen hSeen
  have hResult := hClaim _ _ _ _ _ _ result tree hRun
  cases result with
  | failure code message => cases hSuccess
  | ok message rollback =>
      rw [show (sampleOracle (some 26)).inspects.currentPath = some [] from rfl, targetPath_sample] at hResult
      have hBoth := hNode.symm.trans (lstat_of_replaced hResult)
      exact absurd hBoth (by decide)

end ContainerCP.Wordpress
