import ContainerCP.Ssl.CertificateStore

/-! A certificate is replaced whole. Wherever `save_all` fails or the process stops,
`current` leads to a version with all of its files: those of the old certificate, or
those of the new one. -/
namespace ContainerCP.Ssl

open Control Posix

/-! ## Complete versions -/

/-- A version directory with its files. -/
structure Full (tree : Tree) (version : Path) (bundle : Bundle) : Prop where
  directory : tree.lookup version = some .directory
  parts : ∀ part, ∃ mode, tree.lookup (version ++ [part.fileName]) = some (.file ⟨bundle part, mode⟩)

/-- The link `current` leads to the version with a name. -/
structure Current (tree : Tree) (site : Path) (name : Name) (bundle : Bundle) : Prop where
  directories : tree.Directories (versionsDir site)
  link : tree.lookup (currentLink site) = some (.link [versionsName, name])
  full : Full tree (versionDir site name) bundle

/-- A site with a complete current version. -/
def Complete (tree : Tree) (site : Path) (bundle : Bundle) : Prop := ∃ name, Current tree site name bundle

section Layout

variable {tree tree' : Tree} {site : Path} {name other : Name} {bundle : Bundle}

theorem Current.siteDirectories (h : Current tree site name bundle) : tree.Directories site :=
  fun q hq => h.directories q (hq.trans (List.prefix_append _ _))

theorem Current.versionDirectories (h : Current tree site name bundle) : tree.Directories (versionDir site name) :=
  h.directories.concat h.full.directory

/-- The link leads to the version directory. -/
theorem Current.resolve (h : Current tree site name bundle) :
    tree.resolve (currentLink site) = some (versionDir site name) := by
  have hLink : tree.resolve (site ++ [currentName] ++ []) = tree.follow 39 site ([versionsName, name] ++ []) :=
    Tree.resolve_link h.siteDirectories h.link
  rw [List.append_nil, List.append_nil] at hLink
  rw [currentLink, hLink, versionDir, versionsDir, List.append_assoc]
  apply Tree.follow_of_directories
  intro q hq hNil
  have hPrefix : site ++ q <+: versionDir site name := by
    rw [versionDir, versionsDir, List.append_assoc]
    exact List.prefix_append_right_inj site |>.mpr hq
  exact h.versionDirectories _ hPrefix (by simp [hNil])

/-- What is read under the path of a file. -/
theorem Current.read (h : Current tree site name bundle) (part : Part) :
    tree.read (partPath site part) = some (bundle part) := by
  obtain ⟨mode, hFile⟩ := h.full.parts part
  have hResolve : tree.resolve (partPath site part) = some (versionDir site name ++ [part.fileName]) := by
    rw [partPath, currentLink, Tree.resolve_link h.siteDirectories h.link]
    have hPath : versionDir site name = site ++ [versionsName, name] := by simp [versionDir, versionsDir]
    rw [hPath] at hFile ⊢
    refine Tree.follow_file (fun q hq hNil => ?_) hFile
    apply h.versionDirectories
    · rw [hPath]
      exact List.prefix_append_right_inj site |>.mpr hq
    · simp [hNil]
  rw [Tree.read, hResolve, Option.bind_some, hFile]

/-- The places that a current version rests on. -/
def Footprint (site : Path) (name : Name) (p : Path) : Prop :=
  p <+: versionsDir site ∨ p = currentLink site ∨ p = versionDir site name ∨
    ∃ part : Part, p = versionDir site name ++ [part.fileName]

theorem Current.of_agrees {places : Path → Prop} (h : Current tree site name bundle)
    (hAgrees : tree.AgreesOff places tree') (hClear : ∀ p, Footprint site name p → ¬places p) :
    Current tree' site name bundle where
  directories := h.directories.of_agrees hAgrees fun q hq _ => hClear q (.inl hq)
  link := (hAgrees _ (hClear _ (.inr (.inl rfl)))).trans h.link
  full :=
    { directory := (hAgrees _ (hClear _ (.inr (.inr (.inl rfl))))).trans h.full.directory
      parts := fun part => by
        rw [hAgrees _ (hClear _ (.inr (.inr (.inr ⟨part, rfl⟩))))]
        exact h.full.parts part }

/-- The inside of another version directory is not among them. -/
theorem not_footprint_inside (hOther : other ≠ name) {p : Path} (hp : Footprint site name p) :
    ¬versionDir site other <+: p := by
  intro hInside
  have hLength := hInside.length_le
  have hDiffers : versionDir site other ≠ versionDir site name := by simp [versionDir, hOther]
  simp only [versionDir, versionsDir, List.length_append, List.length_singleton] at hLength
  obtain hAbove | rfl | rfl | ⟨part, rfl⟩ := hp
  · have hShorter := hAbove.length_le
    simp only [versionsDir, List.length_append, List.length_singleton] at hShorter
    omega
  · simp only [currentLink, List.length_append, List.length_singleton] at hLength
    omega
  · exact hDiffers (hInside.eq_of_length (by simp [versionDir]))
  · obtain hWhole | hInside := List.prefix_concat_iff.mp hInside
    · have hLengths := congrArg List.length hWhole
      simp [versionDir] at hLengths
    · exact hDiffers (hInside.eq_of_length (by simp [versionDir]))

/-- Neither is the place of a temporary link. -/
theorem not_footprint_temp {p : Path} (hp : Footprint site name p) : p ≠ site ++ [tempName currentName] := by
  rintro rfl
  obtain hAbove | hLink | hVersion | ⟨part, hPart⟩ := hp
  · have hSame := hAbove.eq_of_length (by simp [versionsDir])
    rw [versionsDir, List.append_cancel_left_eq] at hSame
    exact absurd hSame (by decide)
  · rw [currentLink, List.append_cancel_left_eq] at hLink
    exact absurd hLink (by decide)
  · have hLengths := congrArg List.length hVersion
    simp [versionDir, versionsDir] at hLengths
  · have hLengths := congrArg List.length hPart
    simp [versionDir, versionsDir] at hLengths

end Layout

/-! ## Writing the files of a version -/

section Writing

variable {P : Tree → Prop} {exit : Interrupt → Tree → Prop} {directory : Path} {name : Name}

/-- What is known does not depend on what stands at a place. -/
def Indifferent (P : Tree → Prop) (place : Path) : Prop :=
  ∀ tree tree' : Tree, tree.AgreesOff (· = place) tree' → P tree → P tree'

/-- A place holds a file with a content. -/
def HasContent (place : Path) (content : Bytes) (tree : Tree) : Prop :=
  ∃ mode, tree.lookup place = some (.file ⟨content, mode⟩)

theorem spec_writeRounds (oracle : WriteOracle) (hPlain : ∀ tree, P tree → tree.Plain directory)
    (hTemp : Indifferent P (directory ++ [name])) (hExit : ∀ tree, P tree → exit .stop tree) (left : Nat) :
    ∀ (round : Nat) (data before : Bytes), data.length ≤ left →
      Spec (fun tree => P tree ∧ HasContent (directory ++ [name]) before tree)
        (writeRounds oracle (directory ++ [name]) left round data)
        (fun written tree => P tree ∧ (written = true → HasContent (directory ++ [name]) (before ++ data) tree))
        exit := by
  induction left with
  | zero =>
      intro round data before hLength
      cases data with
      | nil => exact fun tree h => ⟨h.1, fun _ => by rw [List.append_nil]; exact h.2⟩
      | cons c data => exact absurd hLength (by simp)
  | succ left ih =>
      intro round data before hLength
      cases data with
      | nil => exact fun tree h => ⟨h.1, fun _ => by rw [List.append_nil]; exact h.2⟩
      | cons c data =>
          rw [writeRounds]
          set count := max 1 (oracle.taken round) with hCount
          refine Spec.bind (fun written tree => P tree ∧ (written = true →
            HasContent (directory ++ [name]) (before ++ (c :: data).take count) tree)) ?_ fun written => ?_
          · refine spec_attempt (fun tree h => hExit tree h.1) (fun tree h => ⟨h.1, nofun⟩) ?_
            rintro tree tree' ⟨hP, mode, hFile⟩ hAppend
            obtain ⟨file, hLookup, rfl⟩ := Tree.append_ok (hPlain tree hP) hAppend
            have hContent : file = ⟨before, mode⟩ := by simpa [hFile] using hLookup.symm
            refine ⟨hTemp _ _ (Tree.agreesOff_insert _ _) hP, fun _ => ⟨mode, ?_⟩⟩
            rw [AList.lookup_insert, hContent]
          · refine Spec.branch (fun hWritten => ?_) fun _ tree h => ⟨h.1, nofun⟩
            have hRest : ((c :: data).drop count).length ≤ left := by
              rw [List.length_drop]
              simp only [List.length_cons] at hLength ⊢
              omega
            refine Spec.consequence (ih (round + 1) _ (before ++ (c :: data).take count) hRest)
              (fun tree h => ⟨h.1, h.2 hWritten⟩) (fun written tree h => ?_) fun _ _ h => h
            rwa [List.append_assoc, List.take_append_drop] at h

theorem spec_discard (verdict : Verdict) (hPlain : ∀ tree, P tree → tree.Plain directory)
    (hTemp : Indifferent P (directory ++ [name])) (hExit : ∀ tree, P tree → exit .stop tree) :
    Spec P (discard verdict (directory ++ [name])) (fun done tree => P tree ∧ done = false) exit := by
  refine Spec.bind (fun _ => P) (spec_attempt_keeps hExit fun tree tree' hP hUnlink => ?_) fun _ tree hP => ⟨hP, rfl⟩
  obtain ⟨-, rfl⟩ := Tree.unlink_ok (hPlain tree hP) hUnlink
  exact hTemp _ _ (Tree.agreesOff_erase _) hP

/-- `atomic_write` touches its two places only, and a success has put the whole
content there. -/
theorem spec_atomicWrite (oracle : WriteOracle) (content : Bytes) (mode : Nat)
    (hPlain : ∀ tree, P tree → tree.Plain directory) (hTemp : Indifferent P (directory ++ [tempName name]))
    (hPath : Indifferent P (directory ++ [name])) (hExit : ∀ tree, P tree → exit .stop tree) :
    Spec P (atomicWrite oracle directory name content mode)
      (fun done tree => P tree ∧ (done = true → HasContent (directory ++ [name]) content tree)) exit := by
  have hDiscard : Spec P (discard oracle.unlinks (directory ++ [tempName name]))
      (fun done tree => P tree ∧ (done = true → HasContent (directory ++ [name]) content tree)) exit := by
    refine Spec.consequence (spec_discard oracle.unlinks hPlain hTemp hExit) (fun _ h => h) ?_ fun _ _ h => h
    rintro done tree ⟨hP, rfl⟩
    exact ⟨hP, nofun⟩
  refine Spec.bind (fun opened tree => P tree ∧ (opened = true → HasContent (directory ++ [tempName name]) [] tree))
    ?_ fun opened => ?_
  · refine spec_attempt hExit (fun tree h => ⟨h, nofun⟩) fun tree tree' hP hCreate => ?_
    obtain ⟨mode', rfl⟩ := Tree.create_ok (hPlain tree hP) hCreate
    exact ⟨hTemp _ _ (Tree.agreesOff_insert _ _) hP, fun _ => ⟨mode', AList.lookup_insert _⟩⟩
  refine Spec.branch (fun hOpened => ?_) fun _ tree h => ⟨h.1, nofun⟩
  refine Spec.bind _ (Spec.consequence
    (spec_writeRounds oracle hPlain hTemp hExit content.length 0 content [] le_rfl)
    (fun tree h => ⟨h.1, h.2 hOpened⟩) (fun _ _ h => h) fun _ _ h => h) fun written => ?_
  refine Spec.branch (fun hWritten => ?_) fun _ => Spec.consequence hDiscard (fun _ h => h.1) (fun _ _ h => h) fun _ _ h => h
  refine Spec.bind (fun _ tree => P tree ∧ HasContent (directory ++ [tempName name]) content tree) ?_ fun synced => ?_
  · refine spec_attempt (fun tree h => hExit tree h.1) (fun tree h => ⟨h.1, h.2 hWritten⟩) fun tree tree' h hSync => ?_
    injection hSync with hSame
    exact hSame ▸ ⟨h.1, h.2 hWritten⟩
  refine Spec.branch (fun _ => ?_) fun _ => Spec.consequence hDiscard (fun _ h => h.1) (fun _ _ h => h) fun _ _ h => h
  refine Spec.bind (fun renamed tree => P tree ∧ (renamed = true → HasContent (directory ++ [name]) content tree))
    ?_ fun renamed => ?_
  · refine spec_attempt (fun tree h => hExit tree h.1) (fun tree h => ⟨h.1, nofun⟩) ?_
    rintro tree tree' ⟨hP, mode', hFile⟩ hRename
    obtain ⟨node, hNode, -, -, rfl⟩ := Tree.rename_ok (hPlain tree hP) (hPlain tree hP) hRename
    have hErased := hTemp _ _ (Tree.agreesOff_erase _) hP
    refine ⟨hPath _ _ (Tree.agreesOff_insert _ _) hErased, fun _ => ⟨mode', ?_⟩⟩
    rw [AList.lookup_insert, ← hNode, hFile]
  exact Spec.branch (fun hRenamed tree h => ⟨h.1, fun _ => h.2 hRenamed⟩) fun _ =>
    Spec.consequence hDiscard (fun _ h => h.1) (fun _ _ h => h) fun _ _ h => h

theorem Part.fileName_ne_tempName (part part' : Part) : part.fileName ≠ tempName part'.fileName := by
  cases part <;> cases part' <;> decide

/-- The files that are written so far. -/
def Written (directory : Path) (bundle : Bundle) (done : List Part) (tree : Tree) : Prop :=
  ∀ part ∈ done, HasContent (directory ++ [part.fileName]) (bundle part) tree

theorem Written.indifferent {bundle : Bundle} {done : List Part} (hName : ∀ part ∈ done, part.fileName ≠ name)
    (hP : Indifferent P (directory ++ [name])) :
    Indifferent (fun tree => P tree ∧ Written directory bundle done tree) (directory ++ [name]) := by
  rintro tree tree' hAgrees ⟨hPre, hWritten⟩
  refine ⟨hP tree tree' hAgrees hPre, fun part hPart => ?_⟩
  obtain ⟨mode, hFile⟩ := hWritten part hPart
  refine ⟨mode, (hAgrees _ ?_).trans hFile⟩
  simpa using hName part hPart

theorem spec_writeParts (oracle : Part → WriteOracle) (bundle : Bundle)
    (hPlain : ∀ tree, P tree → tree.Plain directory) (hInside : ∀ name, Indifferent P (directory ++ [name]))
    (hExit : ∀ tree, P tree → exit .stop tree) (parts : List Part) :
    ∀ done : List Part, (done ++ parts).Nodup →
      Spec (fun tree => P tree ∧ Written directory bundle done tree) (writeParts oracle directory bundle parts)
        (fun written tree => P tree ∧ (written = true → Written directory bundle (done ++ parts) tree)) exit := by
  induction parts with
  | nil => exact fun done _ tree h => ⟨h.1, fun _ => by rw [List.append_nil]; exact h.2⟩
  | cons part parts ih =>
      intro done hNodup
      have hNew : part ∉ done := by
        intro hMem
        rw [List.nodup_append] at hNodup
        exact hNodup.2.2 part hMem part List.mem_cons_self rfl
      have hTemp : Indifferent (fun tree => P tree ∧ Written directory bundle done tree)
          (directory ++ [tempName part.fileName]) :=
        Written.indifferent (fun other _ => other.fileName_ne_tempName part) (hInside _)
      have hPath : Indifferent (fun tree => P tree ∧ Written directory bundle done tree)
          (directory ++ [part.fileName]) :=
        Written.indifferent (fun other hOther hSame => hNew (Part.fileName_injective hSame ▸ hOther)) (hInside _)
      refine Spec.bind _ (spec_atomicWrite (oracle part) (bundle part) part.mode (fun tree h => hPlain tree h.1) hTemp
        hPath fun tree h => hExit tree h.1) fun written => ?_
      refine Spec.branch (fun hWritten => ?_) fun _ tree h => ⟨h.1.1, nofun⟩
      have hAppend : done ++ part :: parts = done ++ [part] ++ parts := by simp
      rw [hAppend] at hNodup ⊢
      refine Spec.consequence (ih (done ++ [part]) hNodup) (fun tree h => ⟨h.1.1, fun other hOther => ?_⟩)
        (fun _ _ h => h) fun _ _ h => h
      obtain hDone | hLast := List.mem_append.mp hOther
      · exact h.1.2 other hDone
      · rw [List.mem_singleton.mp hLast]
        exact h.2 hWritten

end Writing

/-! ## Removing a version -/

section Removing

variable {Q : Tree → Prop} {exit : Interrupt → Tree → Prop} {directory : Path} {name : Name}

/-- What is known does not depend on what stands in a directory. -/
def Outside (Q : Tree → Prop) (directory : Path) : Prop :=
  ∀ tree tree' : Tree, tree.AgreesOff (directory <+: ·) tree' → Q tree → Q tree'

theorem Outside.indifferent (h : Outside Q directory) (name : Name) : Indifferent Q (directory ++ [name]) := by
  intro tree tree' hAgrees
  apply h
  apply hAgrees.mono
  rintro p rfl
  exact List.prefix_append _ _

theorem Plain.erase {tree : Tree} {path place : Path} (h : tree.Plain path) : Tree.Plain (tree.erase place) path := by
  intro q hq hNil target
  by_cases hPlace : q = place
  · rw [hPlace, AList.lookup_erase]
    exact nofun
  · rw [AList.lookup_erase_ne hPlace]
    exact h q hq hNil target

/-- The removal of a version keeps what is known about the rest. -/
theorem spec_removeVersion (oracle : RemoveOracle) (hQ : Outside Q (directory ++ [name]))
    (hExit : ∀ tree, Q tree → exit .stop tree) :
    Spec (fun tree => Q tree ∧ tree.Plain (directory ++ [name])) (removeVersion oracle (directory ++ [name]))
      (fun _ tree => Q tree ∧ tree.Plain (directory ++ [name])) exit := by
  have hUnlink : ∀ (verdict : Verdict) (part : Part),
      Spec (fun tree => Q tree ∧ tree.Plain (directory ++ [name]))
        (attempt verdict (·.unlink (directory ++ [name] ++ [part.fileName])))
        (fun _ tree => Q tree ∧ tree.Plain (directory ++ [name])) exit := by
    intro verdict part
    refine spec_attempt_keeps (fun tree h => hExit tree h.1) fun tree tree' h hGone => ?_
    obtain ⟨-, rfl⟩ := Tree.unlink_ok h.2 hGone
    exact ⟨hQ.indifferent _ _ _ (Tree.agreesOff_erase _) h.1, Plain.erase h.2⟩
  refine Spec.bind _ (hUnlink _ .fullchain) fun _ => ?_
  refine Spec.bind _ (hUnlink _ .privkey) fun _ => ?_
  refine Spec.bind _ (hUnlink _ .chain) fun _ => ?_
  refine Spec.bind _ (hUnlink _ .metadata) fun _ => ?_
  refine Spec.bind _ (spec_attempt_keeps (fun tree h => hExit tree h.1) fun tree tree' h hGone => ?_) fun _ tree h => h
  obtain rfl := Tree.rmdir_ok (Tree.plain_concat.mp h.2).1 hGone
  have hAgrees : tree.AgreesOff (directory ++ [name] <+: ·) (tree.erase (directory ++ [name])) := by
    apply (Tree.agreesOff_erase _).mono
    rintro p rfl
    exact List.prefix_rfl
  exact ⟨hQ _ _ hAgrees h.1, Plain.erase h.2⟩

end Removing

section Replacement

variable {site : Path} {old new : Bundle}

/-- The versions that the clean-up removes do not include the new one. -/
theorem ne_of_lt_newVersion {name : Name} {number newVersion : Int32} (hDigits : name.all isDigit = true)
    (hNumber : stoi name = some number) (hOld : number < newVersion - 1) : name ≠ decimalInt newVersion.toInt := by
  rintro rfl
  rw [stoi_decimalInt] at hNumber
  have hSame : newVersion = number := Option.some.inj hNumber
  -- a number below zero is written with its sign, which is no digit
  have hNonneg : 0 ≤ newVersion.toInt := by
    by_contra hNegative
    rw [decimalInt, if_pos (by omega), List.all_cons] at hDigits
    exact absurd hDigits (by simp [show isDigit (ascii '-') = false by decide])
  rw [← hSame, Int32.lt_iff_toInt_lt, Int32.toInt_sub] at hOld
  have hRange := newVersion.toInt_lt
  rw [show (1 : Int32).toInt = 1 by decide, Int.bmod_eq_of_le (by omega) (by omega)] at hOld
  omega

theorem spec_removeOldVersions {exit : Interrupt → Tree → Prop} (oracle : Name → RemoveOracle) (newVersion : Int32)
    (hExit : ∀ interrupt tree, Current tree site (decimalInt newVersion.toInt) new → exit interrupt tree)
    (entries : List (Name × Bool)) :
    Spec (fun tree => Current tree site (decimalInt newVersion.toInt) new ∧
        ∀ name, (name, true) ∈ entries → tree.Plain (versionDir site name))
      (removeOldVersions oracle site newVersion entries)
      (fun _ tree => Current tree site (decimalInt newVersion.toInt) new) exit := by
  induction entries with
  | nil => exact fun tree h => h.1
  | cons entry rest ih =>
      obtain ⟨name, isDirectory⟩ := entry
      have hRest : Spec (fun tree => Current tree site (decimalInt newVersion.toInt) new ∧
          ∀ other, (other, true) ∈ (name, isDirectory) :: rest → tree.Plain (versionDir site other))
          (removeOldVersions oracle site newVersion rest)
          (fun _ tree => Current tree site (decimalInt newVersion.toInt) new) exit :=
        Spec.consequence ih (fun tree h => ⟨h.1, fun other hOther => h.2 other (List.mem_cons_of_mem _ hOther)⟩)
          (fun _ _ h => h) fun _ _ h => h
      rw [removeOldVersions]
      refine Spec.branch (fun hVersion => ?_) fun _ => hRest
      rw [Bool.and_eq_true] at hVersion
      cases hNumber : stoi name with
      | none => exact fun tree h => hExit _ tree h.1
      | some number =>
          refine Spec.bind _ (Spec.when (fun hOld => ?_) fun _ tree h => h) fun _ => hRest
          have hOther := ne_of_lt_newVersion hVersion.2 hNumber (of_decide_eq_true hOld)
          -- the other entries are what is known, and this one loses its link to nothing
          have hOutside : Outside (fun tree => Current tree site (decimalInt newVersion.toInt) new ∧
              ∀ other, other ≠ name → (other, true) ∈ (name, isDirectory) :: rest →
                tree.Plain (versionDir site other)) (versionsDir site ++ [name]) := by
            rintro tree tree' hAgrees ⟨hCurrent, hPlain⟩
            refine ⟨hCurrent.of_agrees hAgrees fun p hp => not_footprint_inside hOther hp, ?_⟩
            intro other hNe hMem
            refine (hPlain other hNe hMem).of_agrees hAgrees fun q hq _ hInside => ?_
            have hSame := (hInside.trans hq).eq_of_length (by simp [versionDir])
            exact hNe (by simpa [versionDir] using hSame.symm)
          refine Spec.consequence (spec_removeVersion (oracle name) hOutside fun tree h => hExit .stop tree h.1)
            (fun tree h => ⟨⟨h.1, fun other _ hMem => h.2 other hMem⟩, h.2 name ?_⟩) (fun _ tree h => ⟨h.1.1, ?_⟩)
            fun _ _ h => h
          · rw [hVersion.1]
            exact List.mem_cons_self
          · intro other hMem
            by_cases hName : other = name
            · rw [hName]
              exact h.2
            · exact h.1.2 other hName hMem

theorem spec_fsync {P : Tree → Prop} {exit : Interrupt → Tree → Prop} (verdict : Verdict)
    (hExit : ∀ tree, P tree → exit .stop tree) : Spec P (fsync verdict) (fun _ => P) exit := by
  refine spec_attempt_keeps hExit fun tree tree' hP hSync => ?_
  injection hSync with hSame
  exact hSame ▸ hP

/-- How a replacement may be left: with either certificate. -/
def Either (site : Path) (old new : Bundle) (tree : Tree) : Prop := Complete tree site old ∨ Complete tree site new

/-- How it may return. -/
def Returned (site : Path) (old new : Bundle) (result : OperationResult) (tree : Tree) : Prop :=
  Complete tree site new ∨ result.success = false ∧ Complete tree site old

theorem spec_cleanUp (oracle : SaveOracle) (newVersion : Int32) :
    Spec (fun tree => Current tree site (decimalInt newVersion.toInt) new) (cleanUp oracle site newVersion)
      (fun _ tree => Current tree site (decimalInt newVersion.toInt) new) (fun _ => Either site old new) := by
  have hExit : ∀ tree, Current tree site (decimalInt newVersion.toInt) new → Either site old new tree :=
    fun tree h => .inr ⟨_, h⟩
  refine Spec.bind (fun entries tree => Current tree site (decimalInt newVersion.toInt) new ∧
      ∀ listed, entries = some listed → ∀ name, (name, true) ∈ listed → tree.Plain (versionDir site name))
    (spec_observe hExit (fun tree h => ⟨h, nofun⟩) fun tree h => ⟨h, ?_⟩) fun entries => ?_
  · intro listed hList name hMem
    have hNode := Tree.lookup_of_mem_list h.directories hList hMem
    exact (h.directories.concat hNode).plain
  · cases entries with
    | none => exact fun tree h => h.1
    | some listed =>
        refine Spec.consequence (spec_removeOldVersions oracle.removes newVersion (fun _ => hExit) listed)
          (fun tree h => ⟨h.1, h.2 listed rfl⟩) (fun _ _ h => h) fun _ _ h => h

/-- Both certificates are there: the old one is current, and the new one is whole. -/
structure Staged (site : Path) (old new : Bundle) (current version : Name) (tree : Tree) : Prop where
  differ : version ≠ current
  current : Current tree site current old
  full : Full tree (versionDir site version) new

theorem Staged.indifferent_temp {current version : Name} :
    Indifferent (Staged site old new current version) (site ++ [tempName currentName]) := by
  intro tree tree' hAgrees h
  have hKeeps : ∀ p, Footprint site version p ∨ Footprint site current p → tree'.lookup p = tree.lookup p :=
    fun p hp => hAgrees p (hp.elim not_footprint_temp not_footprint_temp)
  refine ⟨h.differ, h.current.of_agrees hAgrees fun p hp => not_footprint_temp hp, ?_, fun part => ?_⟩
  · rw [hKeeps _ (.inl (.inr (.inr (.inl rfl))))]
    exact h.full.directory
  · rw [hKeeps _ (.inl (.inr (.inr (.inr ⟨part, rfl⟩))))]
    exact h.full.parts part

/-- The swap makes the new certificate the current one. -/
theorem Staged.swapped {tree tree' : Tree} {current version : Name} (h : Staged site old new current version tree)
    (hTemp : tree.lookup (site ++ [tempName currentName]) = some (.link [versionsName, version]))
    (hRename : tree.rename (site ++ [tempName currentName]) (currentLink site) = .ok tree') :
    Current tree' site version new := by
  have hPlain := h.current.siteDirectories.plain
  obtain ⟨node, hNode, -, -, hTree⟩ := Tree.rename_ok hPlain hPlain hRename
  rw [← currentLink] at hTree
  have hErased := Staged.indifferent_temp _ _ (Tree.agreesOff_erase _) h
  have hAgrees : Tree.AgreesOff (· = currentLink site) (tree.erase (site ++ [tempName currentName])) tree' := by
    rw [hTree]
    exact Tree.agreesOff_insert _ _
  have hLengths : ∀ p : Path, currentLink site ≠ versionDir site version ++ p := by
    intro p hSame
    have hLength := congrArg List.length hSame
    simp only [versionDir, versionsDir, currentLink, List.length_append, List.length_singleton] at hLength
    omega
  refine ⟨hErased.current.directories.of_agrees hAgrees ?_, ?_, ?_, fun part => ?_⟩
  · rintro q hq - rfl
    have hSame := hq.eq_of_length (by simp [currentLink, versionsDir])
    rw [currentLink, versionsDir, List.append_cancel_left_eq] at hSame
    exact absurd hSame (by decide)
  · rw [hTree, AList.lookup_insert, ← hNode, hTemp]
  · rw [hAgrees _ fun hSame => hLengths [] (by rw [hSame, List.append_nil])]
    exact hErased.full.directory
  · rw [hAgrees _ fun hSame => hLengths _ hSame.symm]
    exact hErased.full.parts part

theorem spec_switchVersion (oracle : SaveOracle) (newVersion : Int32) (current : Name) :
    Spec (Staged site old new current (decimalInt newVersion.toInt)) (switchVersion oracle site newVersion)
      (Returned site old new) (fun _ => Either site old new) := by
  have hExit : ∀ tree, Staged site old new current (decimalInt newVersion.toInt) tree → Either site old new tree :=
    fun tree h => .inl ⟨_, h.current⟩
  have hUnlink : ∀ verdict, Spec (Staged site old new current (decimalInt newVersion.toInt))
      (attempt verdict (·.unlink (site ++ [tempName currentName])))
      (fun _ => Staged site old new current (decimalInt newVersion.toInt)) (fun _ => Either site old new) := by
    intro verdict
    refine spec_attempt_keeps hExit fun tree tree' h hGone => ?_
    obtain ⟨-, rfl⟩ := Tree.unlink_ok h.current.siteDirectories.plain hGone
    exact Staged.indifferent_temp _ _ (Tree.agreesOff_erase _) h
  refine Spec.bind _ (spec_fsync _ hExit) fun _ => ?_
  refine Spec.bind _ (hUnlink _) fun _ => ?_
  refine Spec.bind (fun linked tree => Staged site old new current (decimalInt newVersion.toInt) tree ∧
    (linked = true → tree.lookup (site ++ [tempName currentName]) =
      some (.link [versionsName, decimalInt newVersion.toInt]))) ?_ fun linked => ?_
  · refine spec_attempt hExit (fun tree h => ⟨h, nofun⟩) fun tree tree' h hLink => ?_
    obtain ⟨-, rfl⟩ := Tree.symlink_ok h.current.siteDirectories.plain hLink
    exact ⟨Staged.indifferent_temp _ _ (Tree.agreesOff_insert _ _) h, fun _ => AList.lookup_insert _⟩
  refine Spec.branch (fun hLinked => ?_) fun _ => ?_
  · refine Spec.bind _ (spec_fsync _ fun tree h => hExit tree h.1) fun _ => ?_
    refine Spec.bind (fun swapped tree => if swapped = true then Current tree site (decimalInt newVersion.toInt) new
      else Staged site old new current (decimalInt newVersion.toInt) tree) ?_ fun swapped => ?_
    · exact spec_attempt (fun tree h => hExit tree h.1) (fun tree h => h.1) fun tree tree' h hRename =>
        h.1.swapped (h.2 hLinked) hRename
    refine Spec.branch (fun hSwapped => ?_) fun hKept => ?_
    · simp only [hSwapped, if_true]
      refine Spec.bind _ (spec_fsync _ fun tree h => .inr ⟨_, h⟩) fun _ => ?_
      exact Spec.bind _ (spec_cleanUp oracle newVersion) fun _ tree h => .inl ⟨_, h⟩
    · simp only [if_neg hKept]
      exact Spec.bind _ (hUnlink _) fun _ tree h => .inr ⟨rfl, _, h.current⟩
  · refine Spec.bind (fun _ tree => Current tree site current old) ?_ fun _ tree h => .inr ⟨rfl, _, h⟩
    refine Spec.given (fun tree h => h.1.differ) fun hDiffer => ?_
    have hOutside : Outside (fun tree => Current tree site current old)
        (versionsDir site ++ [decimalInt newVersion.toInt]) :=
      fun tree tree' hAgrees h => h.of_agrees hAgrees fun p hp => not_footprint_inside hDiffer hp
    refine Spec.consequence (spec_removeVersion oracle.rollback hOutside fun tree h => .inl ⟨_, h⟩)
      (fun tree h => ⟨h.1.current, ?_⟩) (fun _ _ h => h.1) fun _ _ h => h
    exact (h.1.current.directories.concat h.1.full.directory).plain

/-- The directories of a site that has a certificate are there already. -/
theorem spec_makeDirectory {P : Tree → Prop} {exit : Interrupt → Tree → Prop} {path : Path} (verdict : Verdict)
    (hDirectories : ∀ tree, P tree → tree.Directories path) (hExit : ∀ tree, P tree → exit .stop tree) :
    Spec P (makeDirectory verdict path) (fun _ => P) exit := by
  refine Spec.bind (fun _ => P) (spec_call hExit (fun _ _ h => h) fun tree tree' h hMade => ?_) fun _ _ h => h
  exact absurd hMade (Tree.mkdir_of_directories (hDirectories tree h))

theorem spec_findNextVersion {P : Tree → Prop} {exit : Interrupt → Tree → Prop} (lists : Verdict)
    (hExit : ∀ interrupt tree, P tree → exit interrupt tree) :
    Spec P (findNextVersion site lists) (fun _ => P) exit := by
  refine Spec.bind (fun _ => P) (spec_observe (hExit .stop) (fun _ h => h) fun _ h => h) fun entries => ?_
  cases entries with
  | none => exact fun _ h => h
  | some entries =>
      cases hNumbers : versionNumbers entries with
      | none =>
          simp only [hNumbers]
          exact fun tree h => hExit .exception tree h
      | some versions =>
          simp only [hNumbers]
          exact fun tree h => h

theorem spec_saveAll (oracle : SaveOracle) (current : Name) :
    Spec (fun tree => Current tree site current old) (saveAll oracle site new) (Returned site old new)
      (fun _ => Either site old new) := by
  have hExit : ∀ tree, Current tree site current old → Either site old new tree := fun tree h => .inl ⟨_, h⟩
  have hReady : Spec (fun tree => Current tree site current old)
      (ensureSiteDir site oracle.makeSite oracle.makeVersions) (fun _ tree => Current tree site current old)
      (fun _ => Either site old new) := by
    refine Spec.bind _ (spec_makeDirectory _ (fun tree h => h.siteDirectories) hExit) fun _ => ?_
    exact Spec.branch (fun _ => spec_makeDirectory _ (fun tree h => h.directories) hExit) fun _ tree h => h
  refine Spec.bind _ hReady fun _ => ?_
  refine Spec.branch (fun _ => ?_) fun _ tree h => .inr ⟨rfl, _, h⟩
  refine Spec.bind _ (spec_findNextVersion _ fun _ => hExit) fun newVersion => ?_
  -- a directory that could be made is none of those that were there
  let Made : Tree → Prop := fun tree => Current tree site current old ∧ decimalInt newVersion.toInt ≠ current ∧
    tree.lookup (versionDir site (decimalInt newVersion.toInt)) = some .directory
  refine Spec.bind (fun made tree => Current tree site current old ∧ (made = true → Made tree)) ?_ fun made => ?_
  · refine spec_attempt hExit (fun tree h => ⟨h, nofun⟩) fun tree tree' h hMade => ?_
    obtain ⟨hNone, rfl⟩ := Tree.mkdir_ok h.directories.plain hMade
    have hDiffer : decimalInt newVersion.toInt ≠ current := by
      rintro rfl
      rw [← versionDir, h.full.directory] at hNone
      cases hNone
    have hCurrent : Current (tree.insert (versionsDir site ++ [decimalInt newVersion.toInt]) .directory) site
        current old := by
      refine h.of_agrees (Tree.agreesOff_insert _ _) ?_
      rintro p hp rfl
      exact not_footprint_inside hDiffer hp List.prefix_rfl
    exact ⟨hCurrent, fun _ => ⟨hCurrent, hDiffer, AList.lookup_insert _⟩⟩
  refine Spec.branch (fun hMade => ?_) fun _ tree h => .inr ⟨rfl, _, h.1⟩
  have hInside : ∀ name, Indifferent Made (versionDir site (decimalInt newVersion.toInt) ++ [name]) := by
    rintro name tree tree' hAgrees ⟨hCurrent, hDiffer, hDirectory⟩
    refine ⟨hCurrent.of_agrees hAgrees ?_, hDiffer, (hAgrees _ (by simp)).trans hDirectory⟩
    rintro p hp rfl
    exact not_footprint_inside hDiffer hp (List.prefix_append _ _)
  refine Spec.bind (fun written tree => Made tree ∧ (written = true → ∀ part : Part,
      HasContent (versionDir site (decimalInt newVersion.toInt) ++ [part.fileName]) (new part) tree)) ?_ fun written => ?_
  · refine Spec.consequence (spec_writeParts oracle.writes new (fun tree h => (h.1.directories.concat h.2.2).plain)
      hInside (fun tree h => show (fun _ => Either site old new) Interrupt.stop tree from hExit tree h.1)
      [.fullchain, .privkey, .chain, .metadata] [] (by decide)) (fun tree h => ⟨h.2 hMade, nofun⟩)
      (fun written tree h => ⟨h.1, fun hWritten part => h.2 hWritten part ?_⟩) fun _ _ h => h
    cases part <;> decide
  refine Spec.branch (fun hWritten => ?_) fun _ => ?_
  · refine Spec.consequence (spec_switchVersion oracle newVersion current) (fun tree h => ?_) (fun _ _ h => h)
      fun _ _ h => h
    exact ⟨h.1.2.1, h.1.1, h.1.2.2, h.2 hWritten⟩
  · refine Spec.bind (fun _ tree => Current tree site current old) ?_ fun _ tree h => .inr ⟨rfl, _, h⟩
    refine Spec.given (fun tree h => h.1.2.1) fun hDiffer => ?_
    have hOutside : Outside (fun tree => Current tree site current old)
        (versionsDir site ++ [decimalInt newVersion.toInt]) :=
      fun tree tree' hAgrees h => h.of_agrees hAgrees fun p hp => not_footprint_inside hDiffer hp
    refine Spec.consequence (spec_removeVersion oracle.rollback hOutside fun tree h => .inl ⟨_, h⟩)
      (fun tree h => ⟨h.1.1, (h.1.1.directories.concat h.1.2.2).plain⟩) (fun _ _ h => h.1) fun _ _ h => h

end Replacement

/-- What a reader finds: `current` leads to a version, and under it every file of the
certificate. -/
def Serves (tree : Tree) (site : Path) (bundle : Bundle) : Prop :=
  ∃ name, tree.resolve (currentLink site) = some (versionDir site name) ∧
    ∀ part, tree.read (partPath site part) = some (bundle part)

theorem Complete.serves {tree : Tree} {site : Path} {bundle : Bundle} (h : Complete tree site bundle) :
    Serves tree site bundle := by
  obtain ⟨name, hCurrent⟩ := h
  exact ⟨name, hCurrent.resolve, hCurrent.read⟩

/-- A replacement that returned or was interrupted left one of the two certificates
whole, and returned with success only where it left the new one. -/
structure LeavesWhole (site : Path) (old new : Bundle) (run : EStateM.Result Interrupt Tree OperationResult) :
    Prop where
  returned : ∀ result tree, run = .ok result tree →
    ∃ bundle, (bundle = new ∨ result.success = false ∧ bundle = old) ∧ Complete tree site bundle ∧
      Serves tree site bundle
  interrupted : ∀ interrupt tree, run = .error interrupt tree →
    ∃ bundle, (bundle = new ∨ bundle = old) ∧ Complete tree site bundle ∧ Serves tree site bundle

/-- However the calls of `save_all` go, and wherever the process stops, the site has
the old certificate or the new one whole; a success means the new one. -/
theorem saveAll_atomic (oracle : SaveOracle) (site : Path) (old : Bundle) (metadata : Metadata)
    (fullchain privkey chain : Bytes) (tree : Tree) (hOld : Complete tree site old) :
    LeavesWhole site old (bundleOf metadata fullchain privkey chain)
      (saveAll oracle site (bundleOf metadata fullchain privkey chain) tree) := by
  generalize bundleOf metadata fullchain privkey chain = new
  obtain ⟨current, hCurrent⟩ := hOld
  have hSpec : Spec (fun tree => Current tree site current old) (saveAll oracle site new) (Returned site old new)
      (fun _ => Either site old new) := spec_saveAll oracle current
  have hRun := hSpec tree hCurrent
  constructor
  · intro result tree' hResult
    rw [hResult] at hRun
    obtain hNew | ⟨hFailed, hOld⟩ := hRun
    · exact ⟨new, .inl rfl, hNew, hNew.serves⟩
    · exact ⟨old, .inr ⟨hFailed, rfl⟩, hOld, hOld.serves⟩
  · intro interrupt tree' hResult
    rw [hResult] at hRun
    obtain hOld | hNew := hRun
    · exact ⟨old, .inr rfl, hOld, hOld.serves⟩
    · exact ⟨new, .inl rfl, hNew, hNew.serves⟩

/-- A store with one site that has one version. -/
def storeOf (site : Path) (name : Name) (bundle : Bundle) : Tree :=
  List.toAList (site.inits.filter (· ≠ []) |>.map (⟨·, .directory⟩) |>.append
    [ ⟨versionsDir site, .directory⟩, ⟨versionDir site name, .directory⟩
    , ⟨currentLink site, .link [versionsName, name]⟩
    , ⟨versionDir site name ++ [Part.fullchain.fileName], .file ⟨bundle .fullchain, 0o644⟩⟩
    , ⟨versionDir site name ++ [Part.privkey.fileName], .file ⟨bundle .privkey, 0o600⟩⟩
    , ⟨versionDir site name ++ [Part.chain.fileName], .file ⟨bundle .chain, 0o644⟩⟩
    , ⟨versionDir site name ++ [Part.metadata.fileName], .file ⟨bundle .metadata, 0o644⟩⟩ ])

theorem complete_storeOf : Complete (storeOf [bytes "ssl", bytes "7"] (bytes "1") (fun _ => bytes "old"))
    [bytes "ssl", bytes "7"] (fun _ => bytes "old") := by
  refine ⟨bytes "1", by decide, by decide, by decide, fun part => ⟨part.mode, ?_⟩⟩
  cases part <;> decide

/-- A store with an old certificate, and a run on it whose swap fails. -/
theorem saveAll_atomic_storeOf :
    LeavesWhole [bytes "ssl", bytes "7"] (fun _ => bytes "old") (bundleOf {} (bytes "f") (bytes "k") (bytes "c"))
      (saveAll { writes := fun _ => { taken := fun _ => 4 }, swap := .fails } [bytes "ssl", bytes "7"]
        (bundleOf {} (bytes "f") (bytes "k") (bytes "c"))
        (storeOf [bytes "ssl", bytes "7"] (bytes "1") fun _ => bytes "old")) :=
  saveAll_atomic _ _ _ _ _ _ _ _ complete_storeOf

end ContainerCP.Ssl
