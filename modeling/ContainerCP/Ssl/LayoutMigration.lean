import ContainerCP.Ssl.CertificateStore

/-! The move from the flat layout to versions, and what a later `load_metadata` finds
when the move was not finished. What matters of a site is where each of its files
is, so the calls are followed on that. -/
namespace ContainerCP.Ssl

open Control Posix

def firstVersion : Name := decimalInt (1 : Int32).toInt

/-! ## Where the files are -/

/-- The files beside `versions` and those in the first version, and which of the
directories and links are there. -/
structure Shape where
  versions : Bool
  made : Bool
  linked : Bool
  flat : Part → Option Bytes
  moved : Part → Option Bytes

/-- Both calls for a file work. -/
def MigrationOracle.bothWork (oracle : MigrationOracle) (part : Part) : Bool :=
  oracle.stats part = .works && oracle.moves part = .works

/-- The process stops at one of the two calls for a file, which is there or not. -/
def MigrationOracle.stopsAt (oracle : MigrationOracle) (file : Option Bytes) (part : Part) : Bool :=
  oracle.stats part = .stops || (oracle.stats part = .works && file.isSome && oracle.moves part = .stops)

/-- One of the calls is where the process stops. -/
def MigrationOracle.Stops (oracle : MigrationOracle) : Prop :=
  oracle.makeVersion = .stops ∨ (∃ part, oracle.stats part = .stops ∨ oracle.moves part = .stops) ∨
    oracle.link = .stops ∨ oracle.sync = .stops

namespace Shape

def make (shape : Shape) : Shape := { shape with made := shape.made || shape.versions }

def move (shape : Shape) (part : Part) : Shape :=
  match shape.made, shape.flat part with
  | true, some content =>
      { shape with
        flat := Function.update shape.flat part none
        moved := Function.update shape.moved part (some content) }
  | _, _ => shape

def link (shape : Shape) : Shape := { shape with linked := true }

def stopsAt (oracle : MigrationOracle) (shape : Shape) (part : Part) : Bool :=
  oracle.stopsAt (shape.flat part) part

def moveBy (oracle : MigrationOracle) (shape : Shape) (part : Part) : Shape :=
  if oracle.bothWork part then shape.move part else shape

/-- The files in their order, then the link, up to where the process stops. -/
def moveParts (oracle : MigrationOracle) : List Part → Shape → Shape
  | [], shape => if oracle.link = .works then shape.link else shape
  | part :: rest, shape =>
      if shape.stopsAt oracle part then shape else moveParts oracle rest (shape.moveBy oracle part)

/-- What `migrate_flat_to_versioned` leaves, whether it comes to its end or stops. -/
def migrate (oracle : MigrationOracle) (shape : Shape) : Shape :=
  if oracle.makeVersion = .stops then shape
  else
    moveParts oracle [.metadata, .fullchain, .privkey, .chain]
      (if oracle.makeVersion = .works then shape.make else shape)

theorem make_eq_self {shape : Shape} (h : shape.versions = true → shape.made = true) : shape.make = shape := by
  have hMade : (shape.made || shape.versions) = shape.made := by
    cases hVersions : shape.versions with
    | false => rw [Bool.or_false]
    | true => rw [h hVersions, Bool.or_true]
  rw [make, hMade]

theorem link_eq_self {shape : Shape} (h : shape.linked = true) : shape.link = shape := by
  rw [link, ← h]

end Shape

/-- The places of a site that the move is about. -/
inductive Place where
  | versions
  | version
  | current
  | flat (part : Part)
  | moved (part : Part)
  deriving DecidableEq

def Place.path (site : Path) : Place → Path
  | versions => versionsDir site
  | version => versionDir site firstVersion
  | current => currentLink site
  | flat part => site ++ [part.fileName]
  | moved part => versionDir site firstVersion ++ [part.fileName]

/-- What stands at a place, without the mode of a file. -/
inductive Seen where
  | nothing
  | directory
  | link (target : Path)
  | file (content : Bytes)
  deriving DecidableEq

def seen : Option Node → Seen
  | none => .nothing
  | some .directory => .directory
  | some (.link target) => .link target
  | some (.file file) => .file file.content

def seenFile : Option Bytes → Seen
  | none => .nothing
  | some content => .file content

def Shape.at (shape : Shape) : Place → Seen
  | .versions => if shape.versions then .directory else .nothing
  | .version => if shape.made then .directory else .nothing
  | .current => if shape.linked then .link [versionsName, firstVersion] else .nothing
  | .flat part => seenFile (shape.flat part)
  | .moved part => seenFile (shape.moved part)

/-- The directory of a site has a shape. -/
structure Shaped (site : Path) (shape : Shape) (tree : Tree) : Prop where
  directories : tree.Directories site
  places : ∀ place : Place, seen (tree.lookup (place.path site)) = shape.at place
  nested : shape.made = true → shape.versions = true
  nestedParts : ∀ part, shape.moved part ≠ none → shape.made = true

section Places

variable {tree tree' : Tree} {site : Path} {shape : Shape}

theorem Place.path_length (site : Path) (place : Place) : site.length < (place.path site).length := by
  cases place <;> simp [path, versionsDir, versionDir, currentLink]

theorem Place.path_injective : Function.Injective (Place.path site) := by
  intro place place' h
  have hLength := congrArg List.length h
  cases place <;> cases place' <;>
    simp only [path, versionDir, versionsDir, currentLink, List.length_append, List.length_singleton,
      List.append_cancel_left_eq, List.cons.injEq, and_true] at h hLength <;>
    first
      | rfl
      | omega
      | exact congrArg _ (Part.fileName_injective h)
      | (rename_i part; cases part <;> exact absurd h (by decide))
      | exact absurd h (by decide)

theorem seen_nothing {node : Option Node} (h : seen node = .nothing) : node = none := by
  cases node with
  | none => rfl
  | some node => cases node <;> cases h

theorem seen_directory {node : Option Node} (h : seen node = .directory) : node = some .directory := by
  cases node with
  | none => cases h
  | some node => cases node <;> first | rfl | cases h

theorem seen_link {node : Option Node} {target : Path} (h : seen node = .link target) : node = some (.link target) := by
  cases node with
  | none => cases h
  | some node =>
      cases node with
      | directory => cases h
      | file file => cases h
      | link target' =>
          injection h with hSame
          rw [hSame]

theorem seen_file {node : Option Node} {content : Bytes} (h : seen node = .file content) :
    ∃ mode, node = some (.file ⟨content, mode⟩) := by
  cases node with
  | none => cases h
  | some node =>
      cases node with
      | directory => cases h
      | link target => cases h
      | file file =>
          injection h with hSame
          exact ⟨file.mode, by rw [← hSame]⟩

/-- A place holds a file with a content, or nothing. -/
def HoldsAt (place : Path) (content : Option Bytes) (tree : Tree) : Prop :=
  match content with
  | none => tree.lookup place = none
  | some content => ∃ mode, tree.lookup place = some (.file ⟨content, mode⟩)

theorem holdsAt_of_seen {place : Path} {content : Option Bytes} (h : seen (tree.lookup place) = seenFile content) :
    HoldsAt place content tree := by
  cases content with
  | none => exact seen_nothing h
  | some content => exact seen_file h

theorem Shaped.versions (h : Shaped site shape tree) :
    tree.lookup (versionsDir site) = if shape.versions then some .directory else none := by
  have hSeen := h.places .versions
  simp only [Place.path, Shape.at] at hSeen
  split at hSeen
  · next hIs => rw [if_pos hIs, seen_directory hSeen]
  · next hIs => rw [if_neg hIs, seen_nothing hSeen]

theorem Shaped.version (h : Shaped site shape tree) :
    tree.lookup (versionDir site firstVersion) = if shape.made then some .directory else none := by
  have hSeen := h.places .version
  simp only [Place.path, Shape.at] at hSeen
  split at hSeen
  · next hIs => rw [if_pos hIs, seen_directory hSeen]
  · next hIs => rw [if_neg hIs, seen_nothing hSeen]

theorem Shaped.current (h : Shaped site shape tree) :
    tree.lookup (currentLink site) = if shape.linked then some (.link [versionsName, firstVersion]) else none := by
  have hSeen := h.places .current
  simp only [Place.path, Shape.at] at hSeen
  split at hSeen
  · next hIs => rw [if_pos hIs, seen_link hSeen]
  · next hIs => rw [if_neg hIs, seen_nothing hSeen]

theorem Shaped.flat (h : Shaped site shape tree) (part : Part) :
    HoldsAt (site ++ [part.fileName]) (shape.flat part) tree :=
  holdsAt_of_seen (h.places (.flat part))

theorem Shaped.moved (h : Shaped site shape tree) (part : Part) :
    HoldsAt (versionDir site firstVersion ++ [part.fileName]) (shape.moved part) tree :=
  holdsAt_of_seen (h.places (.moved part))

/-- A change at some of the places gives the shape that differs there. -/
theorem Shaped.of_change {shape' : Shape} (changed : Place → Prop) (h : Shaped site shape tree)
    (hAgrees : tree.AgreesOff (fun p => ∃ place, changed place ∧ p = place.path site) tree')
    (hSame : ∀ place, ¬changed place → shape'.at place = shape.at place)
    (hChanged : ∀ place, changed place → seen (tree'.lookup (place.path site)) = shape'.at place)
    (hNested : shape'.made = true → shape'.versions = true)
    (hParts : ∀ part, shape'.moved part ≠ none → shape'.made = true) : Shaped site shape' tree' where
  directories := by
    refine h.directories.of_agrees hAgrees ?_
    rintro q hq - ⟨place, -, rfl⟩
    have hLonger := place.path_length site
    have hShorter := hq.length_le
    omega
  places := by
    intro place
    by_cases hPlace : changed place
    · exact hChanged place hPlace
    · rw [hSame place hPlace, ← h.places place, hAgrees]
      rintro ⟨place', hPlace', hPath⟩
      exact hPlace (Place.path_injective hPath ▸ hPlace')
  nested := hNested
  nestedParts := hParts

theorem Shaped.versionsDirectories (h : Shaped site shape tree) (hVersions : shape.versions = true) :
    tree.Directories (versionsDir site) :=
  h.directories.concat (h.versions.trans (by rw [hVersions]; rfl))

theorem Shaped.versionDirectories (h : Shaped site shape tree) (hMade : shape.made = true) :
    tree.Directories (versionDir site firstVersion) :=
  (h.versionsDirectories (h.nested hMade)).concat (h.version.trans (by rw [hMade]; rfl))

/-- What `stat` says of a flat file. -/
theorem Shaped.present_flat (h : Shaped site shape tree) (part : Part) :
    tree.present (site ++ [part.fileName]) = (shape.flat part).isSome := by
  have hFile := h.flat part
  cases hFlat : shape.flat part with
  | none =>
      rw [hFlat] at hFile
      rw [Tree.present, Tree.resolve_of_missing h.directories hFile []]
      rfl
  | some content =>
      rw [hFlat] at hFile
      obtain ⟨mode, hNode⟩ := hFile
      rw [Tree.present, Tree.resolve_file h.directories hNode]
      rfl

/-- What a path below `current` leads to. -/
theorem Shaped.resolve_current (h : Shaped site shape tree) (rest : Path) :
    tree.resolve (currentLink site ++ rest) =
      if shape.linked then tree.follow 39 site ([versionsName, firstVersion] ++ rest) else none := by
  cases hLinked : shape.linked with
  | false =>
      have hMissing := h.current
      rw [hLinked] at hMissing
      rw [currentLink, List.append_assoc]
      exact Tree.resolve_of_missing h.directories hMissing rest
  | true =>
      have hLink := h.current
      rw [hLinked] at hLink
      exact Tree.resolve_link h.directories hLink

theorem Shaped.walk_version (h : Shaped site shape tree) (hMade : shape.made = true) (rest : Path) :
    tree.walk site ([versionsName, firstVersion] ++ rest) = tree.walk (versionDir site firstVersion) rest := by
  have hBelow : ∀ q, q <+: [versionsName, firstVersion] → q ≠ [] → tree.lookup (site ++ q) = some .directory := by
    intro q hq hNil
    apply h.versionDirectories hMade
    · rw [versionDir, versionsDir, List.append_assoc]
      exact List.prefix_append_right_inj site |>.mpr hq
    · simp [hNil]
  rw [Tree.walk_append hBelow, versionDir, versionsDir, List.append_assoc]
  rfl

theorem Shaped.walk_unmade (h : Shaped site shape tree) (hMade : shape.made = false) (rest : Path) :
    tree.walk site ([versionsName, firstVersion] ++ rest) = .missing := by
  have hVersions := h.versions
  have hVersion := h.version
  rw [hMade] at hVersion
  rw [List.cons_append, Tree.walk, ← versionsDir, hVersions]
  cases hThere : shape.versions with
  | false => rfl
  | true =>
      simp only [if_true, List.singleton_append, Tree.walk]
      rw [← versionDir, hVersion]
      rfl

theorem Shaped.present_current (h : Shaped site shape tree) :
    tree.present (currentLink site) = (shape.linked && shape.made) := by
  have hResolve := h.resolve_current []
  rw [List.append_nil] at hResolve
  rw [Tree.present, hResolve]
  cases hLinked : shape.linked with
  | false => rfl
  | true =>
      rw [if_pos rfl, Tree.follow]
      cases hMade : shape.made with
      | false =>
          rw [h.walk_unmade hMade]
          rfl
      | true =>
          rw [h.walk_version hMade, Tree.walk]
          rfl

theorem Shaped.resolve_part (h : Shaped site shape tree) (part : Part) :
    tree.resolve (partPath site part) =
      if shape.linked && (shape.moved part).isSome then some (versionDir site firstVersion ++ [part.fileName])
      else none := by
  rw [partPath, h.resolve_current]
  cases hLinked : shape.linked with
  | false => rfl
  | true =>
      rw [if_pos rfl, Tree.follow]
      have hFile := h.moved part
      cases hMade : shape.made with
      | false =>
          rw [h.walk_unmade hMade]
          cases hMoved : shape.moved part with
          | none => rfl
          | some content => exact absurd (h.nestedParts part (by simp [hMoved])) (by simp [hMade])
      | true =>
          rw [h.walk_version hMade, Tree.walk]
          cases hMoved : shape.moved part with
          | none =>
              rw [hMoved] at hFile
              rw [show tree.lookup (versionDir site firstVersion ++ [part.fileName]) = none from hFile]
              rfl
          | some content =>
              rw [hMoved] at hFile
              obtain ⟨mode, hNode⟩ := hFile
              rw [hNode]
              rfl

theorem Shaped.present_part (h : Shaped site shape tree) (part : Part) :
    tree.present (partPath site part) = (shape.linked && (shape.moved part).isSome) := by
  rw [Tree.present, h.resolve_part]
  split
  · next hThere => rw [hThere]; rfl
  · next hMissing =>
    rw [Bool.not_eq_true] at hMissing
    rw [hMissing]
    rfl

theorem Shaped.read_part (h : Shaped site shape tree) (part : Part) :
    tree.read (partPath site part) = if shape.linked then shape.moved part else none := by
  rw [Tree.read, h.resolve_part]
  cases hLinked : shape.linked with
  | false => rfl
  | true =>
      have hFile := h.moved part
      cases hMoved : shape.moved part with
      | none => rfl
      | some content =>
          rw [hMoved] at hFile
          obtain ⟨mode, hNode⟩ := hFile
          simp only [Bool.true_and, Option.isSome_some, if_true, Option.bind_some, hNode]

/-! ## What the calls do -/

theorem Shaped.makes (h : Shaped site shape tree) :
    match tree.mkdir (versionDir site firstVersion) with
    | .ok tree' => Shaped site shape.make tree'
    | .error _ => shape.make = shape := by
  cases hVersions : shape.versions with
  | false =>
      have hMissing := h.versions
      rw [hVersions] at hMissing
      have hLocate : tree.locate (versionDir site firstVersion) = none := by
        rw [Tree.locate, versionDir, List.getLast?_concat, List.dropLast_concat, versionsDir,
          Tree.resolve_of_missing h.directories hMissing []]
        rfl
      rw [Tree.mkdir, Tree.atPlace, hLocate]
      exact Shape.make_eq_self (by simp [hVersions])
  | true =>
      have hDirectories := h.versionsDirectories hVersions
      rw [Tree.mkdir, Tree.atPlace, versionDir, Tree.locate_of_directories hDirectories, ← versionDir]
      cases hMade : shape.made with
      | true =>
          dsimp only
          rw [h.version, hMade]
          exact Shape.make_eq_self fun _ => hMade
      | false =>
          have hVersion := h.version
          rw [hMade] at hVersion
          dsimp only
          rw [hVersion]
          refine h.of_change (· = .version) ?_ ?_ ?_ ?_ ?_
          · apply (Tree.agreesOff_insert _ _).mono
            rintro p rfl
            exact ⟨.version, rfl, rfl⟩
          · intro place hPlace
            cases place <;> first | rfl | exact absurd rfl hPlace
          · rintro place rfl
            simp [Place.path, Shape.at, Shape.make, hVersions, AList.lookup_insert, seen]
          · exact fun _ => hVersions
          · intro part _
            simp [Shape.make, hVersions]

theorem Shaped.links (h : Shaped site shape tree) :
    match tree.symlink [versionsName, firstVersion] (currentLink site) with
    | .ok tree' => Shaped site shape.link tree'
    | .error _ => shape.link = shape := by
  rw [Tree.symlink, Tree.atPlace, currentLink, Tree.locate_of_directories h.directories, ← currentLink]
  cases hLinked : shape.linked with
  | true =>
      dsimp only
      rw [h.current, hLinked]
      exact Shape.link_eq_self hLinked
  | false =>
      have hMissing := h.current
      rw [hLinked] at hMissing
      dsimp only
      rw [hMissing]
      refine h.of_change (· = .current) ?_ ?_ ?_ h.nested h.nestedParts
      · apply (Tree.agreesOff_insert _ _).mono
        rintro p rfl
        exact ⟨.current, rfl, rfl⟩
      · intro place hPlace
        cases place <;> first | rfl | exact absurd rfl hPlace
      · rintro place rfl
        simp [Place.path, Shape.at, Shape.link, AList.lookup_insert, seen]

theorem Shaped.moves (h : Shaped site shape tree) (part : Part) :
    match tree.rename (site ++ [part.fileName]) (versionDir site firstVersion ++ [part.fileName]) with
    | .ok tree' => Shaped site (shape.move part) tree'
    | .error _ => shape.move part = shape := by
  have hFile := h.flat part
  rw [Tree.rename, Tree.atPlace, Tree.locate_of_directories h.directories]
  cases hMade : shape.made with
  | false =>
      have hKept : shape.move part = shape := by simp [Shape.move, hMade]
      have hLocate : tree.locate (versionDir site firstVersion ++ [part.fileName]) = none := by
        have hResolve : tree.resolve (versionDir site firstVersion) = none := by
          rw [Tree.resolve, Tree.follow]
          have hBelow : ∀ q, q <+: site → q ≠ [] → tree.lookup ([] ++ q) = some .directory := h.directories
          have hWalk := h.walk_unmade hMade []
          have hPath : versionDir site firstVersion = site ++ ([versionsName, firstVersion] ++ []) := by
            simp [versionDir, versionsDir]
          rw [hPath, Tree.walk_append hBelow, List.nil_append, hWalk]
        rw [Tree.locate, List.getLast?_concat, List.dropLast_concat, hResolve]
        rfl
      simp only [Tree.atPlace, hLocate]
      exact hKept
  | true =>
      simp only [Tree.atPlace, Tree.locate_of_directories (h.versionDirectories hMade)]
      cases hFlat : shape.flat part with
      | none =>
          rw [hFlat] at hFile
          rw [show tree.lookup (site ++ [part.fileName]) = none from hFile]
          simp [Shape.move, hFlat]
      | some content =>
          rw [hFlat] at hFile
          obtain ⟨mode, hNode⟩ := hFile
          have hTarget : tree.lookup (versionDir site firstVersion ++ [part.fileName]) ≠ some .directory := by
            intro hDirectory
            have hMoved := h.places (.moved part)
            simp only [Place.path, hDirectory, seen, Shape.at] at hMoved
            cases hThere : shape.moved part <;> rw [hThere] at hMoved <;> cases hMoved
          simp only [hNode, if_neg hTarget]
          have hMove : shape.move part = { shape with
              flat := Function.update shape.flat part none
              moved := Function.update shape.moved part (some content) } := by
            simp [Shape.move, hMade, hFlat]
          have hOther : Place.path site (.flat part) ≠ Place.path site (.moved part) :=
            fun hSame => absurd (Place.path_injective hSame) (by simp)
          rw [hMove]
          refine h.of_change (fun place => place = .flat part ∨ place = .moved part) ?_ ?_ ?_ (fun _ => h.nested hMade)
            (fun _ _ => hMade)
          · intro p hp
            rw [AList.lookup_insert_ne, AList.lookup_erase_ne]
            · rintro rfl
              exact hp ⟨.flat part, .inl rfl, rfl⟩
            · rintro rfl
              exact hp ⟨.moved part, .inr rfl, rfl⟩
          · intro place hPlace
            cases place with
            | flat other =>
                have hNe : other ≠ part := fun hSame => hPlace (.inl (by rw [hSame]))
                simp [Shape.at, Function.update_of_ne hNe]
            | moved other =>
                have hNe : other ≠ part := fun hSame => hPlace (.inr (by rw [hSame]))
                simp [Shape.at, Function.update_of_ne hNe]
            | versions => rfl
            | version => rfl
            | current => rfl
          · rintro place (rfl | rfl)
            · show seen (AList.lookup (Place.path site (.flat part)) (AList.insert (Place.path site (.moved part)) _
                (AList.erase (Place.path site (.flat part)) tree))) = _
              rw [AList.lookup_insert_ne hOther, AList.lookup_erase]
              simp [Shape.at, seen, seenFile]
            · simp [Place.path, Shape.at, AList.lookup_insert, seen, seenFile]

end Places

/-! ## The move, on shapes -/

section Steps

variable {site : Path} {shape : Shape} {oracle : MigrationOracle}

/-- A call that takes a shape to the next one where it works. -/
theorem spec_step {effect : Tree → Except Errno Tree} {next : Shape} (verdict : Verdict)
    (h : ∀ tree, Shaped site shape tree →
      match effect tree with
      | .ok tree' => Shaped site next tree'
      | .error _ => next = shape) :
    Spec (Shaped site shape) (attempt verdict effect)
      (fun _ tree => verdict ≠ .stops ∧ Shaped site (if verdict = .works then next else shape) tree)
      (fun _ tree => verdict = .stops ∧ Shaped site shape tree) := by
  cases verdict with
  | stops => exact fun tree hShaped => ⟨rfl, hShaped⟩
  | fails => exact fun tree hShaped => ⟨nofun, hShaped⟩
  | works =>
      intro tree hShaped
      have hEffect := h tree hShaped
      rw [attempt_works]
      cases hResult : effect tree with
      | ok tree' =>
          rw [hResult] at hEffect
          exact ⟨nofun, hEffect⟩
      | error errno =>
          rw [hResult] at hEffect
          refine ⟨nofun, ?_⟩
          rw [if_pos rfl, hEffect]
          exact hShaped

theorem spec_moveIfExists (part : Part) :
    Spec (Shaped site shape) (moveIfExists oracle site (versionDir site firstVersion) part)
      (fun _ tree => shape.stopsAt oracle part = false ∧ Shaped site (shape.moveBy oracle part) tree)
      (fun _ tree => shape.stopsAt oracle part = true ∧ Shaped site shape tree) := by
  unfold moveIfExists
  refine Spec.bind (fun found tree => Shaped site shape tree ∧ oracle.stats part ≠ .stops ∧
    found = (oracle.stats part = .works && (shape.flat part).isSome)) ?_ fun found => ?_
  · intro tree h
    unfold observe
    cases hStat : oracle.stats part with
    | stops => exact ⟨by simp [Shape.stopsAt, MigrationOracle.stopsAt, hStat], h⟩
    | fails => exact ⟨h, nofun, by simp⟩
    | works => exact ⟨h, nofun, by simp [h.present_flat part]⟩
  · refine Spec.given (fun tree h => h.2) ?_
    rintro ⟨hStat, hFound⟩
    refine Spec.when (fun hThere => ?_) fun hThere tree h => ?_
    · rw [hThere, eq_comm, Bool.and_eq_true, decide_eq_true_eq] at hFound
      refine Spec.bind _ (Spec.consequence (spec_step (oracle.moves part) fun tree h => h.moves part)
        (fun tree h => h.1) (fun _ tree h => ?_) fun _ tree h => ?_) fun _ tree h => h
      · refine ⟨by simp [Shape.stopsAt, MigrationOracle.stopsAt, hFound, h.1], ?_⟩
        have hShaped := h.2
        by_cases hMoves : oracle.moves part = .works
        · simpa [Shape.moveBy, MigrationOracle.bothWork, hFound, hMoves] using hShaped
        · simpa [Shape.moveBy, MigrationOracle.bothWork, hFound, hMoves] using hShaped
      · exact ⟨by simp [Shape.stopsAt, MigrationOracle.stopsAt, hFound, h.1], h.2⟩
    · rw [hThere] at hFound
      have hNothing : shape.moveBy oracle part = shape := by
        rw [Shape.moveBy]
        split
        · next hBoth =>
          simp only [MigrationOracle.bothWork, Bool.and_eq_true, decide_eq_true_eq] at hBoth
          have hFlat : shape.flat part = none := by simpa [hBoth.1] using hFound.symm
          simp [Shape.move, hFlat]
        · rfl
      refine ⟨?_, by rw [hNothing]; exact h.1⟩
      simp only [Shape.stopsAt, MigrationOracle.stopsAt, decide_eq_false hStat, Bool.false_or, Bool.and_eq_false_imp]
      rw [← hFound]
      exact nofun

/-- What a stop in the rest of the move leaves is what the shape says. -/
def Leaves (site : Path) (oracle : MigrationOracle) (shape : Shape) (tree : Tree) : Prop :=
  oracle.Stops ∧ Shaped site shape tree

theorem spec_moveParts {parts : List Part} {rest : Unit → Process Unit} (part : Part)
    (hRest : ∀ next, Spec (Shaped site next) (rest ()) (fun _ => Shaped site (next.moveParts oracle parts))
      (fun _ => Leaves site oracle (next.moveParts oracle parts))) :
    Spec (Shaped site shape) (moveIfExists oracle site (versionDir site firstVersion) part >>= rest)
      (fun _ => Shaped site (shape.moveParts oracle (part :: parts)))
      (fun _ => Leaves site oracle (shape.moveParts oracle (part :: parts))) := by
  refine Spec.bind (fun _ tree => shape.stopsAt oracle part = false ∧ Shaped site (shape.moveBy oracle part) tree)
    (Spec.consequence (spec_moveIfExists part) (fun _ h => h) (fun _ _ h => h) ?_) fun _ => ?_
  · rintro _ tree ⟨hStops, hShaped⟩
    rw [Shape.moveParts, if_pos hStops]
    refine ⟨.inr (.inl ⟨part, ?_⟩), hShaped⟩
    simp only [Shape.stopsAt, MigrationOracle.stopsAt, Bool.or_eq_true, decide_eq_true_eq, Bool.and_eq_true] at hStops
    exact hStops.imp id fun h => h.2
  · refine Spec.given (fun tree h => h.1) fun hGoes => ?_
    rw [Shape.moveParts, hGoes]
    exact Spec.consequence (hRest _) (fun _ h => h.2) (fun _ _ h => h) fun _ _ h => h

/-- `migrate_flat_to_versioned` does to a tree what the shape says. -/
theorem spec_migrateFlatToVersioned :
    Spec (Shaped site shape) (migrateFlatToVersioned oracle site 1) (fun _ => Shaped site (shape.migrate oracle))
      (fun _ => Leaves site oracle (shape.migrate oracle)) := by
  unfold migrateFlatToVersioned
  refine Spec.bind (fun _ tree => oracle.makeVersion ≠ .stops ∧
      Shaped site (if oracle.makeVersion = .works then shape.make else shape) tree)
    (Spec.consequence (spec_step oracle.makeVersion fun tree h => h.makes) (fun _ h => h) (fun _ _ h => h) ?_)
    fun _ => ?_
  · rintro _ tree ⟨hStops, hShaped⟩
    rw [Shape.migrate, if_pos hStops]
    exact ⟨.inl hStops, hShaped⟩
  refine Spec.given (fun tree h => h.1) fun hGoes => ?_
  rw [Shape.migrate, if_neg hGoes]
  refine Spec.consequence ?_ (fun _ h => h.2) (fun _ _ h => h) fun _ _ h => h
  refine spec_moveParts _ fun _ => spec_moveParts _ fun _ => spec_moveParts _ fun _ => spec_moveParts _ fun next => ?_
  -- the link, and the call behind it that changes nothing
  refine Spec.bind (fun _ => Shaped site (next.moveParts oracle []))
    (Spec.consequence (spec_step oracle.link fun tree h => h.links) (fun _ h => h) (fun _ _ h => h.2) ?_) fun _ => ?_
  · rintro _ tree ⟨hStops, hShaped⟩
    rw [Shape.moveParts, if_neg (by simp [hStops])]
    exact ⟨.inr (.inr (.inl hStops)), hShaped⟩
  · refine Spec.bind (fun _ => Shaped site (next.moveParts oracle [])) (fun tree h => ?_) fun _ _ h => h
    unfold fsync attempt call
    cases hSync : oracle.sync with
    | works => exact h
    | fails => exact h
    | stops => exact ⟨.inr (.inr (.inr hSync)), h⟩

end Steps

/-! ## What the move keeps -/

namespace Shape

variable {shape : Shape} {oracle : MigrationOracle} {part other : Part} {parts : List Part}
  {files : Part → Option Bytes}

@[simp]
theorem move_versions : (shape.move part).versions = shape.versions := by
  unfold move
  split <;> rfl

@[simp]
theorem move_made : (shape.move part).made = shape.made := by
  unfold move
  split <;> rfl

@[simp]
theorem move_linked : (shape.move part).linked = shape.linked := by
  unfold move
  split <;> rfl

theorem move_flat_of_ne (h : other ≠ part) : (shape.move part).flat other = shape.flat other := by
  unfold move
  split
  · exact Function.update_of_ne h _ _
  · rfl

theorem move_moved_of_ne (h : other ≠ part) : (shape.move part).moved other = shape.moved other := by
  unfold move
  split
  · exact Function.update_of_ne h _ _
  · rfl

@[simp]
theorem moveBy_versions : (shape.moveBy oracle part).versions = shape.versions := by
  unfold moveBy
  split <;> simp

@[simp]
theorem moveBy_made : (shape.moveBy oracle part).made = shape.made := by
  unfold moveBy
  split <;> simp

@[simp]
theorem moveBy_linked : (shape.moveBy oracle part).linked = shape.linked := by
  unfold moveBy
  split <;> simp

theorem moveBy_flat_of_ne (h : other ≠ part) : (shape.moveBy oracle part).flat other = shape.flat other := by
  unfold moveBy
  split
  · exact move_flat_of_ne h
  · rfl

theorem moveBy_moved_of_ne (h : other ≠ part) : (shape.moveBy oracle part).moved other = shape.moved other := by
  unfold moveBy
  split
  · exact move_moved_of_ne h
  · rfl

theorem stopsAt_moveBy_of_ne (h : other ≠ part) :
    (shape.moveBy oracle part).stopsAt oracle other = shape.stopsAt oracle other := by
  rw [stopsAt, stopsAt, moveBy_flat_of_ne h]

/-- Each file is where it was or in the version, and nowhere else. -/
def Keeps (files : Part → Option Bytes) (shape : Shape) : Prop :=
  ∀ part, shape.flat part = files part ∧ shape.moved part = none ∨
    shape.flat part = none ∧ shape.moved part = files part

theorem Keeps.move (h : shape.Keeps files) (part : Part) : (shape.move part).Keeps files := by
  intro other
  by_cases hOther : other = part
  · subst hOther
    unfold Shape.move
    split
    · next content _ hFlat =>
      refine .inr ⟨Function.update_self _ _ _, ?_⟩
      dsimp only
      rw [Function.update_self]
      obtain ⟨hSame, -⟩ | ⟨hNone, -⟩ := h other
      · exact hFlat.symm.trans hSame
      · rw [hNone] at hFlat
        cases hFlat
    · exact h other
  · rw [move_flat_of_ne hOther, move_moved_of_ne hOther]
    exact h other

theorem Keeps.moveBy (h : shape.Keeps files) (part : Part) : (shape.moveBy oracle part).Keeps files := by
  unfold Shape.moveBy
  split
  · exact h.move part
  · exact h

theorem Keeps.moveParts (h : shape.Keeps files) (parts : List Part) : (shape.moveParts oracle parts).Keeps files := by
  induction parts generalizing shape with
  | nil =>
      unfold Shape.moveParts
      split
      · exact h
      · exact h
  | cons part rest ih =>
      unfold Shape.moveParts
      split
      · exact h
      · exact ih (h.moveBy part)

/-- In a version that is made a file arrives. -/
theorem moved_move (hKeeps : shape.Keeps files) (hMade : shape.made = true) :
    (shape.move part).moved part = files part := by
  unfold move
  split
  · next content _ hFlat =>
    obtain ⟨hSame, -⟩ | ⟨hNone, -⟩ := hKeeps part
    · dsimp only
      rw [Function.update_self, ← hFlat, hSame]
    · rw [hNone] at hFlat
      cases hFlat
  · next hNothing =>
    obtain ⟨hSame, hMoved⟩ | ⟨-, hMoved⟩ := hKeeps part
    · cases hFile : files part with
      | none => exact hMoved
      | some content => exact absurd (hSame.trans hFile) (hNothing content hMade)
    · exact hMoved

theorem moved_move_of_moved (hKeeps : shape.Keeps files) (hMade : shape.made = true)
    (hMoved : shape.moved part = files part) : (shape.move other).moved part = files part := by
  by_cases hSame : part = other
  · rw [hSame]
    exact moved_move hKeeps hMade
  · rw [move_moved_of_ne hSame, hMoved]

@[simp]
theorem moveParts_versions : (shape.moveParts oracle parts).versions = shape.versions := by
  induction parts generalizing shape with
  | nil => unfold moveParts; split <;> rfl
  | cons part rest ih =>
      unfold moveParts
      split
      · rfl
      · rw [ih, moveBy_versions]

@[simp]
theorem moveParts_made : (shape.moveParts oracle parts).made = shape.made := by
  induction parts generalizing shape with
  | nil => unfold moveParts; split <;> rfl
  | cons part rest ih =>
      unfold moveParts
      split
      · rfl
      · rw [ih, moveBy_made]

/-- A file that is not in the list stays. -/
theorem moveParts_of_not_mem (h : other ∉ parts) :
    (shape.moveParts oracle parts).flat other = shape.flat other ∧
      (shape.moveParts oracle parts).moved other = shape.moved other := by
  induction parts generalizing shape with
  | nil =>
      unfold moveParts
      split
      · exact ⟨rfl, rfl⟩
      · exact ⟨rfl, rfl⟩
  | cons part rest ih =>
      have hNe : other ≠ part := fun hSame => h (hSame ▸ List.mem_cons_self)
      unfold moveParts
      split
      · exact ⟨rfl, rfl⟩
      · rw [(ih fun hMem => h (List.mem_cons_of_mem _ hMem)).1, (ih fun hMem => h (List.mem_cons_of_mem _ hMem)).2,
          moveBy_flat_of_ne hNe, moveBy_moved_of_ne hNe]
        exact ⟨rfl, rfl⟩

/-- Without a version directory no file moves. -/
theorem moveParts_unmade (hMade : shape.made = false) :
    (shape.moveParts oracle parts).flat = shape.flat ∧ (shape.moveParts oracle parts).moved = shape.moved := by
  induction parts generalizing shape with
  | nil =>
      unfold moveParts
      split
      · exact ⟨rfl, rfl⟩
      · exact ⟨rfl, rfl⟩
  | cons part rest ih =>
      have hStays : shape.moveBy oracle part = shape := by simp [moveBy, move, hMade]
      unfold moveParts
      split
      · exact ⟨rfl, rfl⟩
      · rw [hStays]
        exact ih hMade

/-- The link is made where the process stops at none of the files. -/
theorem moveParts_linked (hNodup : parts.Nodup) (hUnlinked : shape.linked = false) :
    (shape.moveParts oracle parts).linked = true ↔
      (∀ part ∈ parts, shape.stopsAt oracle part = false) ∧ oracle.link = .works := by
  induction parts generalizing shape with
  | nil =>
      unfold moveParts
      split
      · next hLink => exact ⟨fun _ => ⟨nofun, hLink⟩, fun _ => rfl⟩
      · next hLink => exact ⟨fun h => absurd (hUnlinked.symm.trans h) Bool.false_ne_true, fun h => absurd h.2 hLink⟩
  | cons part rest ih =>
      rw [List.nodup_cons] at hNodup
      unfold moveParts
      split
      · next hStops =>
        refine ⟨fun h => absurd (hUnlinked.symm.trans h) Bool.false_ne_true, fun h => ?_⟩
        rw [h.1 part List.mem_cons_self] at hStops
        cases hStops
      · next hGoes =>
        rw [Bool.not_eq_true] at hGoes
        rw [ih hNodup.2 (by rw [moveBy_linked, hUnlinked]), List.forall_mem_cons]
        have hRest : (∀ other ∈ rest, (shape.moveBy oracle part).stopsAt oracle other = false) ↔
            ∀ other ∈ rest, shape.stopsAt oracle other = false := by
          refine forall₂_congr fun other hOther => ?_
          have hNe : other ≠ part := fun hSame => hNodup.1 (hSame ▸ hOther)
          rw [stopsAt_moveBy_of_ne hNe]
        rw [hRest]
        simp [hGoes]

/-- A file that the process does not stop at has been moved if both of its calls work. -/
theorem moveParts_moved (hNodup : parts.Nodup) (hGoes : ∀ part ∈ parts, shape.stopsAt oracle part = false)
    (hMem : part ∈ parts) : (shape.moveParts oracle parts).moved part = (shape.moveBy oracle part).moved part := by
  induction parts generalizing shape with
  | nil => cases hMem
  | cons first rest ih =>
      rw [List.nodup_cons] at hNodup
      have hFirst := hGoes first List.mem_cons_self
      rw [moveParts, hFirst, if_neg Bool.false_ne_true]
      obtain rfl | hRest := List.mem_cons.mp hMem
      · exact (moveParts_of_not_mem hNodup.1).2
      · have hNe : ∀ other ∈ rest, other ≠ first := fun other hOther hSame => hNodup.1 (hSame ▸ hOther)
        rw [ih hNodup.2 (fun other hOther => ?_) hRest]
        · unfold moveBy
          split
          · next hBoth =>
            split
            · have hMove : ∀ s : Shape, s.flat part = shape.flat part → s.made = shape.made →
                  s.moved part = shape.moved part → (s.move part).moved part = (shape.move part).moved part := by
                intro s hFlat hMade hMoved
                unfold move
                rw [hMade, hFlat]
                split
                · dsimp only
                  rw [Function.update_self, Function.update_self]
                · exact hMoved
              exact hMove _ (move_flat_of_ne (hNe part hRest)) move_made (move_moved_of_ne (hNe part hRest))
            · rfl
          · split
            · exact move_moved_of_ne (hNe part hRest)
            · rfl
        · rw [stopsAt_moveBy_of_ne (hNe other hOther)]
          exact hGoes other (List.mem_cons_of_mem _ hOther)

end Shape

/-! ## Loading again -/

section Reload

variable {site : Path} {shape : Shape} {files : Part → Option Bytes}

/-- The shape behind a `load_metadata` whose calls all work. -/
def Shape.reload (shape : Shape) : Shape :=
  if shape.linked && shape.made then shape
  else if (shape.flat .metadata).isSome then shape.migrate {}
  else shape

/-- What that `load_metadata` says. -/
def Shape.loaded (shape : Shape) (fuel : Nat) (siteId : UInt64) : Option MetadataLoadResult :=
  if shape.linked && shape.made || (shape.flat .metadata).isSome then
    if shape.reload.linked && (shape.reload.moved .metadata).isSome then
      interpretMetadata fuel siteId ((shape.reload.moved .metadata).getD [])
    else some { error := .notFound, message := bytes "metadata.json not found for site " ++ siteText siteId }
  else some { error := .notFound, message := bytes "No certificate data for site " ++ siteText siteId }

theorem Shape.Keeps.migrate (hKeeps : shape.Keeps files) (oracle : MigrationOracle) :
    (shape.migrate oracle).Keeps files := by
  unfold Shape.migrate
  split
  · exact hKeeps
  · apply Shape.Keeps.moveParts
    split
    · exact hKeeps
    · exact hKeeps

theorem Shape.Keeps.reload (hKeeps : shape.Keeps files) : shape.reload.Keeps files := by
  unfold Shape.reload
  split
  · exact hKeeps
  split
  · exact hKeeps.migrate {}
  · exact hKeeps

theorem not_stops_works : ¬MigrationOracle.Stops {} := by
  rintro (h | ⟨part, h | h⟩ | h | h) <;> cases h

theorem spec_ensureCurrent :
    Spec (Shaped site shape) (ensureCurrent {} site)
      (fun ready tree => Shaped site shape.reload tree ∧
        ready = (shape.linked && shape.made || (shape.flat .metadata).isSome)) (fun _ _ => False) := by
  unfold ensureCurrent
  refine Spec.bind (fun linked tree => Shaped site shape tree ∧ linked = (shape.linked && shape.made))
    (fun tree h => ⟨h, h.present_current⟩) fun linked => ?_
  refine Spec.given (fun tree h => h.2) fun hLinked => ?_
  rw [← hLinked]
  refine Spec.branch (fun hIs => ?_) fun hNot => ?_
  · rw [hIs] at hLinked
    intro tree h
    refine ⟨?_, by rw [hIs]; rfl⟩
    rw [Shape.reload, ← hLinked]
    exact h.1
  · rw [Bool.not_eq_true] at hNot
    rw [hNot] at hLinked
    refine Spec.bind (fun flat tree => Shaped site shape tree ∧ flat = (shape.flat .metadata).isSome)
      (fun tree h => ⟨h.1, h.1.present_flat .metadata⟩) fun flat => ?_
    refine Spec.given (fun tree h => h.2) fun hFlat => ?_
    rw [hNot, Bool.false_or, ← hFlat]
    refine Spec.branch (fun hIs => ?_) fun hMissing tree h => ?_
    · refine Spec.bind (fun _ => Shaped site shape.reload) ?_ fun _ tree h => ⟨h, hIs.symm⟩
      rw [Shape.reload, ← hLinked, ← hFlat, hIs]
      refine Spec.consequence spec_migrateFlatToVersioned (fun tree h => h.1) (fun _ _ h => h) fun _ tree h => ?_
      exact not_stops_works h.1
    · rw [Bool.not_eq_true] at hMissing
      refine ⟨?_, hMissing.symm⟩
      rw [Shape.reload, ← hLinked, ← hFlat, hMissing]
      exact h.1

theorem spec_loadMetadata (fuel : Nat) (siteId : UInt64) :
    Spec (Shaped site shape) (loadMetadata {} fuel site siteId)
      (fun result tree => Shaped site shape.reload tree ∧ result = shape.loaded fuel siteId) (fun _ _ => False) := by
  unfold loadMetadata
  refine Spec.bind _ spec_ensureCurrent fun ready => ?_
  refine Spec.given (fun tree h => h.2) fun hReady => ?_
  rw [Shape.loaded, ← hReady]
  refine Spec.branch (fun hIs => ?_) fun hNot tree h => ⟨h.1, by rw [if_neg hNot]⟩
  rw [if_pos hIs]
  refine Spec.bind (fun found tree => Shaped site shape.reload tree ∧
      found = (shape.reload.linked && (shape.reload.moved .metadata).isSome))
    (fun tree h => ⟨h.1, h.1.present_part .metadata⟩) fun found => ?_
  refine Spec.given (fun tree h => h.2) fun hFound => ?_
  rw [← hFound]
  refine Spec.branch (fun hThere => ?_) fun hMissing tree h => ⟨h.1, by rw [if_neg hMissing]⟩
  rw [hThere, eq_comm, Bool.and_eq_true] at hFound
  refine Spec.bind (fun json tree => Shaped site shape.reload tree ∧ json = shape.reload.moved .metadata)
    (fun tree h => ⟨h.1, ?_⟩) fun json tree h => ⟨h.1, ?_⟩
  · show tree.read (partPath site .metadata) = _
    rw [h.1.read_part, if_pos hFound.1]
  · rw [if_pos hThere, h.2]

/-- Every file has come into the version, and the link leads there. -/
def Shape.Recovered (files : Part → Option Bytes) (shape : Shape) : Prop :=
  shape.reload.linked = true ∧ ∀ part, part ≠ .chain → shape.reload.moved part = files part

theorem Shape.Keeps.migrate_works (hKeeps : shape.Keeps files) (hVersions : shape.versions = true) :
    (shape.migrate {}).linked = true ∧ ∀ part, (shape.migrate {}).moved part = files part := by
  have hEq : shape.migrate {} =
      ((((shape.make.move .metadata).move .fullchain).move .privkey).move .chain).link := by
    simp [Shape.migrate, Shape.moveParts, Shape.stopsAt, MigrationOracle.stopsAt, Shape.moveBy, MigrationOracle.bothWork]
  have hMake : shape.make.Keeps files := hKeeps
  have hMade : shape.make.made = true := by simp [Shape.make, hVersions]
  rw [hEq]
  refine ⟨rfl, fun part => ?_⟩
  have hMetadata := hMake.move .metadata
  have hFullchain := hMetadata.move .fullchain
  have hPrivkey := hFullchain.move .privkey
  show ((((shape.make.move .metadata).move .fullchain).move .privkey).move .chain).moved part = files part
  cases part with
  | chain => exact Shape.moved_move hPrivkey (by simp [hMade])
  | privkey =>
      apply Shape.moved_move_of_moved hPrivkey (by simp [hMade])
      exact Shape.moved_move hFullchain (by simp [hMade])
  | fullchain =>
      apply Shape.moved_move_of_moved hPrivkey (by simp [hMade])
      apply Shape.moved_move_of_moved hFullchain (by simp [hMade])
      exact Shape.moved_move hMetadata (by simp [hMade])
  | metadata =>
      apply Shape.moved_move_of_moved hPrivkey (by simp [hMade])
      apply Shape.moved_move_of_moved hFullchain (by simp [hMade])
      apply Shape.moved_move_of_moved hMetadata (by simp [hMade])
      exact Shape.moved_move hMake hMade

/-- Where the link leads to a version, that version has to have the files; where it
does not, the metadata have to be where they were. -/
theorem Shape.recovered_iff (hKeeps : shape.Keeps files) (hMetadata : files .metadata ≠ none)
    (hNested : ∀ part, shape.moved part ≠ none → shape.made = true) (hVersions : shape.versions = true) :
    shape.Recovered files ↔
      if shape.linked && shape.made then ∀ part, part ≠ .chain → shape.moved part = files part
      else shape.flat .metadata ≠ none := by
  rw [Shape.Recovered, Shape.reload]
  cases hCurrent : shape.linked && shape.made with
  | true =>
      rw [Bool.and_eq_true] at hCurrent
      simp only [if_true, hCurrent.1, true_and]
  | false =>
      simp only [Bool.false_eq_true, if_false]
      cases hFlat : shape.flat .metadata with
      | some content =>
          obtain ⟨hLinked, hMoved⟩ := hKeeps.migrate_works hVersions
          simp only [Option.isSome_some, if_true, ne_eq, reduceCtorEq, not_false_eq_true, iff_true]
          exact ⟨hLinked, fun part _ => hMoved part⟩
      | none =>
          simp only [Option.isSome_none, Bool.false_eq_true, if_false, ne_eq, not_true_eq_false, iff_false]
          rintro ⟨hLinked, hMoved⟩
          -- a file in the version means that the version is made
          have hMade := hNested .metadata (by rw [hMoved .metadata nofun]; exact hMetadata)
          rw [hLinked, hMade] at hCurrent
          cases hCurrent

/-- A site in the flat layout; its directory `versions` is there or not. -/
def Shape.flatLayout (versions : Bool) (files : Part → Option Bytes) : Shape :=
  ⟨versions, false, false, files, fun _ => none⟩

/-- The move comes to the link, and makes it. -/
def MigrationOracle.Links (oracle : MigrationOracle) (files : Part → Option Bytes) : Prop :=
  (∀ part ∈ [.fullchain, .privkey, .chain], oracle.stopsAt (files part) part = false) ∧ oracle.link = .works

/-- Once the version is made and the process has passed the metadata, either all of
the move works or the metadata and the link both fail. -/
def MigrationOracle.Harmless (oracle : MigrationOracle) (files : Part → Option Bytes) : Prop :=
  oracle.makeVersion = .works → oracle.stopsAt (files .metadata) .metadata = false →
    if oracle.bothWork .metadata then
      oracle.Links files ∧ oracle.bothWork .fullchain = true ∧ oracle.bothWork .privkey = true
    else ¬oracle.Links files

theorem Shape.migrate_unmade (oracle : MigrationOracle) (shape : Shape) (hMade : shape.made = false)
    (h : shape.versions = false ∨ oracle.makeVersion ≠ .works) :
    (shape.migrate oracle).flat = shape.flat ∧ (shape.migrate oracle).moved = shape.moved ∧
      (shape.migrate oracle).made = false ∧ (shape.migrate oracle).versions = shape.versions := by
  have hStays : (if oracle.makeVersion = .works then shape.make else shape) = shape := by
    split
    · next hWorks =>
      obtain hVersions | hFails := h
      · exact Shape.make_eq_self fun hIs => absurd (hVersions.symm.trans hIs) Bool.false_ne_true
      · exact absurd hWorks hFails
    · rfl
  rw [Shape.migrate, hStays]
  split
  · exact ⟨rfl, rfl, hMade, rfl⟩
  · obtain ⟨hFlat, hMoved⟩ := Shape.moveParts_unmade hMade
    exact ⟨hFlat, hMoved, by rw [Shape.moveParts_made, hMade], Shape.moveParts_versions⟩

theorem Shape.not_recovered_of_no_versions {oracle : MigrationOracle} (hMetadata : files .metadata ≠ none) :
    ¬((Shape.flatLayout false files).migrate oracle).Recovered files := by
  obtain ⟨hFlat, hMoved, hMade, hVersions⟩ :=
    Shape.migrate_unmade oracle (Shape.flatLayout false files) rfl (.inl rfl)
  rintro ⟨-, hFiles⟩
  have hMetadataMoved := hFiles .metadata nofun
  rw [Shape.reload, hMade, Bool.and_false, if_neg Bool.false_ne_true, hFlat] at hMetadataMoved
  obtain ⟨-, hStill, -, -⟩ := Shape.migrate_unmade {} _ hMade (.inl hVersions)
  split at hMetadataMoved
  · rw [hStill, hMoved] at hMetadataMoved
    exact hMetadata hMetadataMoved.symm
  · rw [hMoved] at hMetadataMoved
    exact hMetadata hMetadataMoved.symm

theorem Shape.keeps_flatLayout (versions : Bool) (files : Part → Option Bytes) :
    (Shape.flatLayout versions files).Keeps files :=
  fun _ => .inl ⟨rfl, rfl⟩

theorem Shape.keeps_make_flatLayout (versions : Bool) (files : Part → Option Bytes) :
    (Shape.flatLayout versions files).make.Keeps files :=
  fun _ => .inl ⟨rfl, rfl⟩

/-- The rest of the move, behind the metadata. -/
theorem Shape.linked_rest_iff {oracle : MigrationOracle} :
    (((Shape.flatLayout true files).make.moveBy oracle .metadata).moveParts oracle
      [.fullchain, .privkey, .chain]).linked = true ↔ oracle.Links files := by
  rw [Shape.moveParts_linked (by decide) (by rw [Shape.moveBy_linked]; rfl)]
  refine and_congr_left fun _ => forall₂_congr fun part hPart => ?_
  have hNe : part ≠ .metadata := by
    rintro rfl
    exact absurd hPart (by decide)
  rw [Shape.stopsAt_moveBy_of_ne hNe]
  rfl

/-- A file behind the metadata arrives if both of its calls work. -/
theorem Shape.moved_rest_iff {oracle : MigrationOracle} {part : Part} (hLinks : oracle.Links files)
    (hPart : part ∈ [Part.fullchain, .privkey, .chain]) (hFile : files part ≠ none) :
    (((Shape.flatLayout true files).make.moveBy oracle .metadata).moveParts oracle
      [.fullchain, .privkey, .chain]).moved part = files part ↔ oracle.bothWork part = true := by
  have hNe : ∀ other ∈ [Part.fullchain, .privkey, .chain], other ≠ .metadata := by
    rintro other hOther rfl
    exact absurd hOther (by decide)
  have hGoes : ∀ other ∈ [Part.fullchain, .privkey, .chain],
      ((Shape.flatLayout true files).make.moveBy oracle .metadata).stopsAt oracle other = false := by
    intro other hOther
    rw [Shape.stopsAt_moveBy_of_ne (hNe other hOther)]
    exact hLinks.1 other hOther
  rw [Shape.moveParts_moved (by decide) hGoes hPart, Shape.moveBy]
  have hKeeps : ((Shape.flatLayout true files).make.moveBy oracle .metadata).Keeps files :=
    (Shape.keeps_make_flatLayout true files).moveBy _
  split
  · next hBoth =>
    rw [Shape.moved_move hKeeps (by rw [Shape.moveBy_made]; rfl)]
    exact ⟨fun _ => hBoth, fun _ => rfl⟩
  · next hBoth =>
    rw [Shape.moveBy_moved_of_ne (hNe part hPart)]
    exact ⟨fun hSame => absurd hSame.symm hFile, fun hIs => absurd hIs hBoth⟩

/-- What an interrupted move leaves can be recovered exactly when the move was
harmless. -/
theorem Shape.recovered_flatLayout_iff {oracle : MigrationOracle} (hFiles : ∀ part, part ≠ .chain → files part ≠ none)
    (hNested : ∀ part, ((Shape.flatLayout true files).migrate oracle).moved part ≠ none →
      ((Shape.flatLayout true files).migrate oracle).made = true) :
    ((Shape.flatLayout true files).migrate oracle).Recovered files ↔ oracle.Harmless files := by
  have hMetadata := hFiles .metadata nofun
  have hKeeps := (Shape.keeps_flatLayout true files).migrate oracle
  by_cases hWorks : oracle.makeVersion = .works
  · -- the version is made, and what counts is how far the files came
    have hMigrate : (Shape.flatLayout true files).migrate oracle =
        (Shape.flatLayout true files).make.moveParts oracle [.metadata, .fullchain, .privkey, .chain] := by
      rw [Shape.migrate, if_neg (by simp [hWorks]), if_pos hWorks]
    rw [hMigrate] at hKeeps hNested ⊢
    rw [Shape.recovered_iff hKeeps hMetadata hNested (by rw [Shape.moveParts_versions]; rfl), Shape.moveParts_made,
      show (Shape.flatLayout true files).make.made = true from rfl, Bool.and_true, Shape.moveParts]
    cases hStops : (Shape.flatLayout true files).make.stopsAt oracle .metadata with
    | true =>
        refine ⟨fun _ _ hGoes => ?_, fun _ => hMetadata⟩
        exact absurd (hStops.symm.trans hGoes) nofun
    | false =>
        rw [if_neg Bool.false_ne_true]
        set rest := ((Shape.flatLayout true files).make.moveBy oracle .metadata).moveParts oracle
          [.fullchain, .privkey, .chain] with hRest
        have hLinked : rest.linked = true ↔ oracle.Links files := Shape.linked_rest_iff
        obtain ⟨hFlat, hMoved⟩ : rest.flat .metadata = _ ∧ rest.moved .metadata = _ :=
          Shape.moveParts_of_not_mem (by decide)
        have hKeepsRest : rest.Keeps files :=
          ((Shape.keeps_make_flatLayout true files).moveBy _).moveParts _
        have hHarmless : oracle.Harmless files ↔ if oracle.bothWork .metadata then
            oracle.Links files ∧ oracle.bothWork .fullchain = true ∧ oracle.bothWork .privkey = true
            else ¬oracle.Links files :=
          ⟨fun h => h hWorks hStops, fun h _ _ => h⟩
        rw [hHarmless]
        cases hBoth : oracle.bothWork .metadata with
        | true =>
            rw [Shape.moveBy, if_pos hBoth] at hFlat hMoved
            have hArrived : rest.moved .metadata = files .metadata := by
              rw [hMoved, Shape.moved_move (Shape.keeps_make_flatLayout true files) rfl]
            have hGone : rest.flat .metadata = none := by
              obtain ⟨-, hNone⟩ | ⟨hNone, -⟩ := hKeepsRest .metadata
              · exact absurd (hArrived.symm.trans hNone) hMetadata
              · exact hNone
            by_cases hLinks : oracle.Links files
            · have hFullchain : rest.moved .fullchain = files .fullchain ↔ oracle.bothWork .fullchain = true :=
                Shape.moved_rest_iff hLinks (by decide) (hFiles .fullchain nofun)
              have hPrivkey : rest.moved .privkey = files .privkey ↔ oracle.bothWork .privkey = true :=
                Shape.moved_rest_iff hLinks (by decide) (hFiles .privkey nofun)
              rw [if_pos (hLinked.mpr hLinks), if_pos rfl]
              constructor
              · intro hAll
                exact ⟨hLinks, hFullchain.mp (hAll .fullchain nofun), hPrivkey.mp (hAll .privkey nofun)⟩
              · rintro ⟨-, hFullchainWorks, hPrivkeyWorks⟩ part hChain
                cases part with
                | metadata => exact hArrived
                | fullchain => exact hFullchain.mpr hFullchainWorks
                | privkey => exact hPrivkey.mpr hPrivkeyWorks
                | chain => exact absurd rfl hChain
            · rw [if_neg fun h => hLinks (hLinked.mp h), if_pos rfl]
              exact ⟨fun h => absurd hGone h, fun h => absurd h.1 hLinks⟩
        | false =>
            rw [Shape.moveBy, if_neg (by simp [hBoth])] at hFlat hMoved
            rw [if_neg Bool.false_ne_true]
            by_cases hLinks : oracle.Links files
            · rw [if_pos (hLinked.mpr hLinks)]
              refine ⟨fun hAll => ?_, fun h => absurd hLinks h⟩
              exact absurd ((hAll .metadata nofun).symm.trans hMoved) hMetadata
            · rw [if_neg fun h => hLinks (hLinked.mp h), hFlat]
              exact ⟨fun _ => hLinks, fun _ => hMetadata⟩
  · obtain ⟨hFlat, -, hMade, hVersions⟩ :=
      Shape.migrate_unmade oracle (Shape.flatLayout true files) rfl (.inr hWorks)
    rw [Shape.recovered_iff hKeeps hMetadata hNested hVersions, hMade, Bool.and_false, if_neg Bool.false_ne_true, hFlat]
    exact ⟨fun _ hIs => absurd hIs hWorks, fun _ => hMetadata⟩

end Reload

/-! ## The certificate behind an interrupted move -/

def flatFiles (metadata fullchain privkey : Bytes) (chain : Option Bytes) : Part → Option Bytes
  | .metadata => some metadata
  | .fullchain => some fullchain
  | .privkey => some privkey
  | .chain => chain

/-- A load that gives the metadata of a text, and after which the two paths lead to
their contents. -/
def Finds (site : Path) (siteId : UInt64) (fuel : Nat) (metadata fullchain privkey : Bytes)
    (run : EStateM.Result Interrupt Tree (Option MetadataLoadResult)) : Prop :=
  ∃ tree, run = .ok (interpretMetadata fuel siteId metadata) tree ∧
    tree.read (partPath site .fullchain) = some fullchain ∧ tree.read (partPath site .privkey) = some privkey

theorem interpretMetadata_ne_notFound {fuel : Nat} {siteId : UInt64} {json message : Bytes} :
    interpretMetadata fuel siteId json ≠ some { error := .notFound, message } := by
  unfold interpretMetadata
  split
  · exact nofun
  · cases metadataFromJson fuel json with
    | none => exact nofun
    | some result =>
        cases result with
        | error what => exact nofun
        | ok metadata =>
            simp only [Option.map_some, ne_eq, Option.some.injEq]
            intro hSame
            have hError := congrArg MetadataLoadResult.error hSame
            split_ifs at hError

variable {site : Path} {metadata fullchain privkey : Bytes} {chain : Option Bytes}

/-- A load from a shape finds the certificate exactly where the shape recovers. -/
theorem finds_iff_recovered {shape : Shape} {tree : Tree} (siteId : UInt64) (fuel : Nat)
    (hShaped : Shaped site shape tree) (hKeeps : shape.Keeps (flatFiles metadata fullchain privkey chain)) :
    Finds site siteId fuel metadata fullchain privkey (loadMetadata {} fuel site siteId tree) ↔
      shape.Recovered (flatFiles metadata fullchain privkey chain) := by
  have hRun := spec_loadMetadata fuel siteId tree hShaped
  cases hResult : loadMetadata {} fuel site siteId tree with
  | error interrupt tree' =>
      rw [hResult] at hRun
      exact hRun.elim
  | ok result tree' =>
      rw [hResult] at hRun
      obtain ⟨hShaped', rfl⟩ := hRun
      constructor
      · rintro ⟨tree'', hOk, hFullchain, hPrivkey⟩
        injection hOk with hLoaded hTree
        subst hTree
        rw [hShaped'.read_part] at hFullchain hPrivkey
        cases hLinked : shape.reload.linked with
        | false =>
            rw [hLinked] at hFullchain
            cases hFullchain
        | true =>
            rw [hLinked] at hFullchain hPrivkey
            refine ⟨hLinked, fun part hChain => ?_⟩
            cases part with
            | chain => exact absurd rfl hChain
            | fullchain => exact hFullchain
            | privkey => exact hPrivkey
            | metadata =>
                obtain ⟨-, hNone⟩ | ⟨-, hMoved⟩ := hKeeps.reload .metadata
                · -- without the metadata the load says so, and no text makes it say that
                  rw [Shape.loaded, hNone, Option.isSome_none, Bool.and_false, if_neg Bool.false_ne_true] at hLoaded
                  split at hLoaded
                  · exact absurd hLoaded.symm interpretMetadata_ne_notFound
                  · exact absurd hLoaded.symm interpretMetadata_ne_notFound
                · exact hMoved
      · rintro ⟨hLinked, hMoved⟩
        refine ⟨tree', ?_, ?_, ?_⟩
        · have hMetadata := hMoved .metadata nofun
          have hReady : (shape.linked && shape.made || (shape.flat .metadata).isSome) = true := by
            by_contra hNot
            simp only [Bool.not_eq_true, Bool.or_eq_false_iff] at hNot
            have hSame : shape.reload = shape := by simp [Shape.reload, hNot.1, hNot.2]
            rw [hSame] at hLinked hMetadata
            have hMade := hShaped.nestedParts .metadata (by rw [hMetadata]; exact nofun)
            rw [hLinked, hMade] at hNot
            exact absurd hNot.1 nofun
          rw [Shape.loaded, hReady, if_pos rfl, hLinked, hMetadata]
          rfl
        · rw [hShaped'.read_part, hLinked, hMoved .fullchain nofun]
          rfl
        · rw [hShaped'.read_part, hLinked, hMoved .privkey nofun]
          rfl

/-- A load after an interrupted or failed move from the flat layout finds the
certificate exactly when the site had its directory `versions` and the move was
harmless. -/
theorem load_finds_iff_harmless (oracle : MigrationOracle) (siteId : UInt64) (fuel : Nat) (versions : Bool)
    (tree : Tree)
    (hFlat : Shaped site (Shape.flatLayout versions (flatFiles metadata fullchain privkey chain)) tree) :
    Finds site siteId fuel metadata fullchain privkey
        (loadMetadata {} fuel site siteId (stateAfter (migrateFlatToVersioned oracle site 1 tree))) ↔
      versions = true ∧ oracle.Harmless (flatFiles metadata fullchain privkey chain) := by
  have hFiles : ∀ part, part ≠ .chain → flatFiles metadata fullchain privkey chain part ≠ none := by
    intro part hChain
    cases part with
    | chain => exact absurd rfl hChain
    | metadata => exact nofun
    | fullchain => exact nofun
    | privkey => exact nofun
  have hLeft : Shaped site ((Shape.flatLayout versions (flatFiles metadata fullchain privkey chain)).migrate oracle)
      (stateAfter (migrateFlatToVersioned oracle site 1 tree)) :=
    Spec.stateAfter (Spec.consequence spec_migrateFlatToVersioned (fun _ h => h) (fun _ _ h => h) fun _ _ h => h.2)
      hFlat
  rw [finds_iff_recovered siteId fuel hLeft ((Shape.keeps_flatLayout versions _).migrate oracle)]
  cases versions with
  | false => exact ⟨fun h => absurd h (Shape.not_recovered_of_no_versions (hFiles .metadata nofun)), fun h => nomatch h.1⟩
  | true =>
      rw [Shape.recovered_flatLayout_iff hFiles hLeft.nestedParts]
      exact ⟨fun h => ⟨rfl, h⟩, fun h => h.2⟩

/-- A site in the flat layout that has its directory `versions`. -/
def flatStore (site : Path) (metadata fullchain privkey : Bytes) : Tree :=
  List.toAList (site.inits.filter (· ≠ []) |>.map (⟨·, .directory⟩) |>.append
    [ ⟨versionsDir site, .directory⟩
    , ⟨site ++ [Part.metadata.fileName], .file ⟨metadata, 0o644⟩⟩
    , ⟨site ++ [Part.fullchain.fileName], .file ⟨fullchain, 0o644⟩⟩
    , ⟨site ++ [Part.privkey.fileName], .file ⟨privkey, 0o600⟩⟩ ])

theorem shaped_flatStore :
    Shaped [bytes "ssl", bytes "7"]
      (Shape.flatLayout true (flatFiles (bytes "m") (bytes "f") (bytes "k") none))
      (flatStore [bytes "ssl", bytes "7"] (bytes "m") (bytes "f") (bytes "k")) where
  directories := by decide
  places := by
    intro place
    cases place with
    | versions => decide
    | version => decide
    | current => decide
    | flat part => cases part <;> decide
    | moved part => cases part <;> decide
  nested := nofun
  nestedParts := fun _ h => absurd rfl h

/-- The process stops right behind the move of the metadata. -/
def stopsBehindMetadata : MigrationOracle :=
  { stats := fun part => if part = .fullchain then .stops else .works }

/-- A stop there loses the certificate. -/
theorem not_finds_behind_metadata :
    ¬∀ (site : Path) (siteId : UInt64) (fuel : Nat) (metadata fullchain privkey : Bytes) (chain : Option Bytes)
      (versions : Bool) (oracle : MigrationOracle) (tree : Tree),
      Shaped site (Shape.flatLayout versions (flatFiles metadata fullchain privkey chain)) tree →
        Finds site siteId fuel metadata fullchain privkey
          (loadMetadata {} fuel site siteId (stateAfter (migrateFlatToVersioned oracle site 1 tree))) := by
  intro hAll
  have hFinds := hAll _ 7 0 _ _ _ _ _ stopsBehindMetadata _ shaped_flatStore
  have hLeft : Shaped _ ((Shape.flatLayout true (flatFiles (bytes "m") (bytes "f") (bytes "k") none)).migrate
      stopsBehindMetadata) _ :=
    Spec.stateAfter (Spec.consequence spec_migrateFlatToVersioned (fun _ h => h) (fun _ _ h => h) fun _ _ h => h.2)
      shaped_flatStore
  rw [finds_iff_recovered 7 0 hLeft ((Shape.keeps_flatLayout true _).migrate stopsBehindMetadata)] at hFinds
  have hLinked : ((Shape.flatLayout true (flatFiles (bytes "m") (bytes "f") (bytes "k") none)).migrate
      stopsBehindMetadata).reload.linked = false := by decide
  exact absurd (hFinds.1.symm.trans hLinked) nofun

/-- A move that comes to its end. -/
theorem load_finds_flatStore :
    Finds [bytes "ssl", bytes "7"] 7 0 (bytes "m") (bytes "f") (bytes "k")
      (loadMetadata {} 0 [bytes "ssl", bytes "7"] 7 (stateAfter (migrateFlatToVersioned {} [bytes "ssl", bytes "7"] 1
        (flatStore [bytes "ssl", bytes "7"] (bytes "m") (bytes "f") (bytes "k"))))) :=
  (load_finds_iff_harmless {} 7 0 true _ shaped_flatStore).mpr
    ⟨rfl, fun _ _ => ⟨⟨by decide, rfl⟩, rfl, rfl⟩⟩

end ContainerCP.Ssl
