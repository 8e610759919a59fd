import ContainerCP.Posix.Lookup
import ContainerCP.Text.Lines

/-! `validate_managed_path`: whether a path may be worked on as a part of a managed root.
The system has no limits here on the lengths of paths and names, and no call fails for
other reasons than what stands in the tree. -/
namespace ContainerCP.Access.ManagedPathValidator
open Posix

/-! ## Paths -/

/-- An absolute `std::filesystem::path`: its names, and whether a slash stands behind
them. -/
structure FsPath where
  names : List Name
  trailing : Bool := false
  deriving DecidableEq

/-- The names of a text, of which no two slashes stand together. -/
def textNames (text : Bytes) : List Name := (text.splitOn slash).filter (· ≠ [])

def endsWithSlash (text : Bytes) : Bool := text.getLast? == some slash

/-- The path of an absolute text. -/
def FsPath.ofText (text : Bytes) : FsPath :=
  ⟨textNames text, endsWithSlash text && !(textNames text).isEmpty⟩

def FsPath.text (path : FsPath) : Bytes :=
  if path.names = [] then [slash]
  else path.names.flatMap (slash :: ·) ++ if path.trailing then [slash] else []

/-- What a lookup goes through. -/
def FsPath.lookupNames (path : FsPath) : List Name := path.names ++ if path.trailing then [[]] else []

/-! ## The checks of the texts -/

structure PathValidation where
  ok : Bool := false
  canonical : Bytes := []
  error : Bytes := []
  deriving DecidableEq

def containsControlChars (s : Bytes) : Bool := s.any fun c => c < 0x20 || c == 0x7F

/-- `has_disallowed_component`: the error, if there is one. -/
def hasDisallowedComponent (s : Bytes) : Option Bytes :=
  if bytes "//" <:+: s then some (bytes "repeated separator")
  else
    (s.splitOn slash).findSome? fun comp =>
      if comp = here then some (bytes "path contains .")
      else if comp = parent then some (bytes "path contains ..")
      else none

/-- The checks in front of the first look at the system. -/
def checkTexts (path managedRoot : Bytes) : Option Bytes :=
  if path = [] ∨ managedRoot = [] then some (bytes "empty path")
  else if path.head? ≠ some slash then some (bytes "relative path")
  else if containsControlChars path || containsControlChars managedRoot then some (bytes "control chars")
  else (hasDisallowedComponent path).or (hasDisallowedComponent managedRoot)

/-! ## The checks in the tree -/

section Tree

variable (tree : LinkedTree)

/-- `fs::absolute`. A relative path starts in the working directory, if there still is
one. -/
def absolute (cwd : Option { place : Path // tree.entry place = some .directory }) (text : Bytes) : Option FsPath :=
  if text.head? = some slash then some (.ofText text)
  else cwd.map fun directory =>
    ⟨directory.1 ++ textNames text, endsWithSlash text && !(textNames text).isEmpty⟩

/-- `is_symlink`, with the error for a link. A path that is not there passes, one that
leads through a file does not. -/
def checkLink (error : Bytes) (path : FsPath) : Option Bytes :=
  match tree.lstat path.lookupNames with
  | .found place => if tree.isLink place then some error else none
  | .noEntry => none
  | .notDirectory | .loop => some (bytes "symlink check failed")

/-- The paths that the loop over the components goes through, up to the path itself. -/
def parents (abs : FsPath) : List FsPath := (abs.names.inits.map (FsPath.mk · false) ++ [abs]).takeWhile (· ≠ abs)

/-- The leading names that exist, and the names behind them. -/
def leading (done : List Name) : List Name → Option (List Name × List Name)
  | [] => some (done, [])
  | name :: rest =>
      match tree.stat (done ++ [name]) with
      | .found _ => leading (done ++ [name]) rest
      | .noEntry | .notDirectory => some (done, name :: rest)
      | .loop => none

/-- `weakly_canonical`. The names have no dots, so that `lexically_normal` has nothing
to do. -/
def weaklyCanonical (path : FsPath) : Option FsPath :=
  match tree.stat path.lookupNames with
  | .found place => some ⟨place, false⟩
  | .loop => none
  | .noEntry | .notDirectory =>
      (leading tree [] path.names).bind fun split =>
        match tree.stat split.1 with
        | .found base => some ⟨base ++ split.2, path.trailing⟩
        | _ => none

/-- `validate_managed_path`. A canonical path is never empty. -/
def validateManagedPath (cwd : Option { place : Path // tree.entry place = some .directory }) (path managedRoot : Bytes) : PathValidation :=
  match checkTexts path managedRoot with
  | some error => { error := error }
  | none =>
      let abs := FsPath.ofText path
      match absolute tree cwd managedRoot with
      | none => { error := bytes "root resolution failed" }
      | some rootAbs =>
          match checkLink tree (bytes "final path is symlink") abs with
          | some error => { error := error }
          | none =>
              match (parents abs).findSome? (checkLink tree (bytes "parent component is symlink")) with
              | some error => { error := error }
              | none =>
                  match weaklyCanonical tree abs with
                  | none => { error := bytes "canonical resolution failed" }
                  | some canon =>
                      match weaklyCanonical tree rootAbs with
                      | none => { error := bytes "root canonical failed" }
                      | some rootCanon =>
                          let rootPrefix :=
                            if endsWithSlash rootCanon.text then rootCanon.text else rootCanon.text ++ [slash]
                          if canon.text = rootCanon.text then { error := bytes "path equals managed root" }
                          else if !rootPrefix.isPrefixOf canon.text then { error := bytes "outside managed root" }
                          else { ok := true, canonical := canon.text }

end Tree

/-! ## The texts -/

theorem checkTexts_eq_none {path managedRoot : Bytes} (h : checkTexts path managedRoot = none) :
    path.head? = some slash ∧ hasDisallowedComponent path = none ∧ hasDisallowedComponent managedRoot = none := by
  unfold checkTexts at h
  by_cases hEmpty : path = [] ∨ managedRoot = []
  · simp [hEmpty] at h
  rw [if_neg hEmpty] at h
  by_cases hRelative : path.head? ≠ some slash
  · simp [hRelative] at h
  rw [if_neg hRelative] at h
  by_cases hControl : (containsControlChars path || containsControlChars managedRoot) = true
  · simp [hControl] at h
  rw [if_neg hControl, Option.or_eq_none_iff] at h
  exact ⟨not_not.mp hRelative, h⟩

theorem entryName_of_mem_textNames {text : Bytes} (h : hasDisallowedComponent text = none) {name : Name}
    (hMem : name ∈ textNames text) : EntryName name := by
  obtain ⟨hPiece, hNe⟩ := List.mem_filter.mp hMem
  unfold hasDisallowedComponent at h
  by_cases hDouble : bytes "//" <:+: text
  · simp [hDouble] at h
  rw [if_neg hDouble, List.findSome?_eq_none_iff] at h
  have hDots := h name hPiece
  refine ⟨by simpa using hNe, notMem_of_mem_splitOn hPiece, fun hHere => ?_, fun hParent => ?_⟩
  · simp [hHere] at hDots
  · rw [hParent, if_neg (by decide), if_pos rfl] at hDots
    cases hDots

/-- What stands in front of a slash is told by the text. -/
theorem front_of_slash {name name' : Name} {more more' : Bytes} (hName : slash ∉ name) (hName' : slash ∉ name')
    (hMore' : more' = [] ∨ more'.head? = some slash) (h : name ++ slash :: more <+: name' ++ more') :
    name = name' ∧ slash :: more <+: more' := by
  have hTake : ∀ {front behind : Bytes}, slash ∉ front → behind = [] ∨ behind.head? = some slash →
      (front ++ behind).takeWhile (· ≠ slash) = front := by
    intro front behind hFront hBehind
    rw [List.takeWhile_append_of_pos fun c hc => by simpa using ne_of_mem_of_not_mem hc hFront]
    rcases hBehind with rfl | hHead
    · simp
    · cases behind with
      | nil => simp
      | cons c behind => simp [Option.some.inj hHead]
  obtain ⟨rest, hRest⟩ := h
  have hSame := congrArg (List.takeWhile (· ≠ slash)) hRest
  rw [List.append_assoc, hTake hName (.inr (by simp)), hTake hName' hMore'] at hSame
  subst hSame
  refine ⟨rfl, rest, ?_⟩
  rwa [List.append_assoc, List.append_cancel_left_eq] at hRest

/-- One path's text starts with the other's and a slash just when it leads farther down,
or has a slash at its end. -/
theorem prefix_texts_iff {root path : List Name} {tail : Bytes} (hRoot : ∀ name ∈ root, EntryName name)
    (hPath : ∀ name ∈ path, EntryName name) (hTail : tail = [] ∨ tail = [slash]) :
    root.flatMap (slash :: ·) ++ [slash] <+: path.flatMap (slash :: ·) ++ tail ↔
      (root <+: path ∧ root ≠ path) ∨ (root = path ∧ tail = [slash]) := by
  induction root generalizing path with
  | nil =>
      cases path with
      | nil => rcases hTail with rfl | rfl <;> simp
      | cons name path => simp
  | cons name root ih =>
      have hName := hRoot name List.mem_cons_self
      cases path with
      | nil =>
          rcases hTail with rfl | rfl
          · simp
          · simp [hName.1]
      | cons name' path =>
          have hName' := hPath name' List.mem_cons_self
          have hRest := ih (fun other h => hRoot other (List.mem_cons_of_mem _ h))
            (fun other h => hPath other (List.mem_cons_of_mem _ h))
          have hMore : root.flatMap (slash :: ·) ++ [slash] = slash :: (root.flatMap (slash :: ·) ++ [slash]).tail := by
            cases root <;> simp
          simp only [List.flatMap_cons, List.append_assoc, List.cons_append, List.prefix_cons_inj, List.cons.injEq, ne_eq]
          constructor
          · intro h
            rw [hMore] at h
            have hEnd : path.flatMap (slash :: ·) ++ tail = [] ∨
                (path.flatMap (slash :: ·) ++ tail).head? = some slash := by
              cases path with
              | nil => rcases hTail with rfl | rfl <;> simp
              | cons other path => simp
            obtain ⟨rfl, hBehind⟩ := front_of_slash hName.2.1 hName'.2.1 hEnd h
            rw [← hMore, hRest] at hBehind
            simpa using hBehind
          · intro h
            obtain ⟨rfl, hBehind⟩ : name = name' ∧ ((root <+: path ∧ root ≠ path) ∨ (root = path ∧ tail = [slash])) := by
              rcases h with ⟨hFront, hOther⟩ | ⟨⟨rfl, rfl⟩, hSlash⟩
              · obtain ⟨rfl, hBelow⟩ := List.cons_prefix_cons.mp hFront
                exact ⟨rfl, .inl ⟨hBelow, fun hSame => hOther ⟨rfl, hSame⟩⟩⟩
              · exact ⟨rfl, .inr ⟨rfl, hSlash⟩⟩
            exact (List.prefix_append_right_inj _).mpr (hRest.mpr hBehind)

theorem FsPath.text_eq (path : FsPath) :
    path.text = path.names.flatMap (slash :: ·) ++ if path.names = [] ∨ path.trailing = true then [slash] else [] := by
  unfold FsPath.text
  by_cases hNil : path.names = []
  · simp [hNil]
  · simp [hNil]

theorem endsWithSlash_text {path : FsPath} (h : ∀ name ∈ path.names, EntryName name) :
    endsWithSlash path.text = decide (path.names = [] ∨ path.trailing = true) := by
  rw [FsPath.text_eq, endsWithSlash]
  by_cases hSlash : path.names = [] ∨ path.trailing = true
  · simp [hSlash]
  · rw [if_neg hSlash, List.append_nil]
    obtain ⟨front, name, hNames⟩ := (List.eq_nil_or_concat' path.names).resolve_left fun hNil => hSlash (.inl hNil)
    obtain ⟨hNe, hNoSlash, -, -⟩ := h name (by simp [hNames])
    have hLast : (path.names.flatMap (slash :: ·)).getLast? = name.getLast? := by
      rw [hNames, List.flatMap_append, List.flatMap_singleton, List.getLast?_append, List.getLast?_cons_of_ne_nil hNe]
      cases hEnd : name.getLast? with
      | none => exact absurd (List.getLast?_eq_none_iff.mp hEnd) hNe
      | some c => simp
    rw [hLast]
    simp only [hSlash, decide_false, beq_eq_false_iff_ne]
    exact fun hEnd => hNoSlash (List.mem_of_getLast? hEnd)

theorem names_eq_of_text {path path' : FsPath} (h : ∀ name ∈ path.names, EntryName name)
    (h' : ∀ name ∈ path'.names, EntryName name) (hText : path.text = path'.text) : path.names = path'.names := by
  have hEnd := congrArg endsWithSlash hText
  rw [endsWithSlash_text h, endsWithSlash_text h', decide_eq_decide] at hEnd
  have hFlat : path.names.flatMap (slash :: ·) = path'.names.flatMap (slash :: ·) := by
    rw [FsPath.text_eq, FsPath.text_eq] at hText
    by_cases hSlash : path.names = [] ∨ path.trailing = true
    · rwa [if_pos hSlash, if_pos (hEnd.mp hSlash), List.append_cancel_right_eq] at hText
    · rwa [if_neg hSlash, if_neg (hEnd.not.mp hSlash), List.append_nil, List.append_nil] at hText
  have hOne := (prefix_texts_iff h h' (.inr rfl)).mp (by rw [hFlat])
  have hOther := (prefix_texts_iff h' h (.inr rfl)).mp (by rw [hFlat])
  rcases hOne with ⟨hFront, -⟩ | ⟨hSame, -⟩
  · rcases hOther with ⟨hFront', -⟩ | ⟨hSame, -⟩
    · exact hFront.eq_of_length_le hFront'.length_le
    · exact hSame.symm
  · exact hSame

/-- The two comparisons of the texts. -/
def below (canon rootCanon : FsPath) : Prop :=
  canon.text ≠ rootCanon.text ∧
    (if endsWithSlash rootCanon.text then rootCanon.text else rootCanon.text ++ [slash]) <+: canon.text

theorem below_iff {canon rootCanon : FsPath} (h : ∀ name ∈ canon.names, EntryName name)
    (hRoot : ∀ name ∈ rootCanon.names, EntryName name) :
    below canon rootCanon ↔
      (rootCanon.names <+: canon.names ∧ rootCanon.names ≠ canon.names) ∨
        (rootCanon.names = canon.names ∧ canon.names ≠ [] ∧ canon.trailing = true ∧ rootCanon.trailing = false) := by
  have hRootText : (if endsWithSlash rootCanon.text then rootCanon.text else rootCanon.text ++ [slash]) =
      rootCanon.names.flatMap (slash :: ·) ++ [slash] := by
    rw [endsWithSlash_text hRoot, FsPath.text_eq]
    by_cases hSlash : rootCanon.names = [] ∨ rootCanon.trailing = true
    · simp only [hSlash, decide_true, if_true]
    · simp only [hSlash, decide_false, Bool.false_eq_true, if_false, List.append_nil]
  have hTail : (if canon.names = [] ∨ canon.trailing = true then [slash] else []) = ([] : Bytes) ∨
      (if canon.names = [] ∨ canon.trailing = true then [slash] else []) = [slash] := by
    by_cases hSlash : canon.names = [] ∨ canon.trailing = true
    · exact .inr (if_pos hSlash)
    · exact .inl (if_neg hSlash)
  have hPrefix := prefix_texts_iff hRoot h hTail
  rw [← FsPath.text_eq, ← hRootText] at hPrefix
  rw [below, hPrefix, and_or_left]
  apply or_congr
  · exact and_iff_right_of_imp fun hBelow hSame => hBelow.2 (names_eq_of_text h hRoot hSame).symm
  · constructor
    · rintro ⟨hOther, hNames, hSlash⟩
      rw [FsPath.text_eq, FsPath.text_eq, hNames, hSlash] at hOther
      have hPlain : ¬(canon.names = [] ∨ rootCanon.trailing = true) := fun hBoth => hOther (by rw [if_pos hBoth])
      rw [not_or, Bool.not_eq_true] at hPlain
      have hTrailing : canon.names = [] ∨ canon.trailing = true := by
        by_contra hNot
        simp [hNot] at hSlash
      exact ⟨hNames, hPlain.1, hTrailing.resolve_left hPlain.1, hPlain.2⟩
    · rintro ⟨hNames, hNe, hTrailing, hRootTrailing⟩
      refine ⟨fun hSame => ?_, hNames, if_pos (.inr hTrailing)⟩
      have hEnd := congrArg endsWithSlash hSame
      rw [endsWithSlash_text h, endsWithSlash_text hRoot, hNames] at hEnd
      simp [hNe, hTrailing, hRootTrailing] at hEnd

/-! ## The canonical path -/

section Canonical

variable {tree : LinkedTree}

theorem leading_some {done rest : List Name} {split : List Name × List Name} {base : Path}
    (hDone : tree.stat done = .found base) (h : leading tree done rest = some split) :
    done ++ rest = split.1 ++ split.2 ∧ (∃ base, tree.stat split.1 = .found base) ∧
      ∀ name ∈ split.2.head?,
        tree.stat (split.1 ++ [name]) = .noEntry ∨ tree.stat (split.1 ++ [name]) = .notDirectory := by
  induction rest generalizing done base with
  | nil =>
      obtain rfl := Option.some.inj h
      exact ⟨rfl, ⟨base, hDone⟩, by simp⟩
  | cons name rest ih =>
      rw [leading] at h
      cases hNext : tree.stat (done ++ [name]) with
      | found place =>
          simp only [hNext] at h
          have hSplit := ih hNext h
          rwa [List.append_assoc, List.singleton_append] at hSplit
      | noEntry =>
          simp only [hNext, Option.some.injEq] at h
          subst h
          exact ⟨rfl, ⟨base, hDone⟩, fun other hOther => by simp_all⟩
      | notDirectory =>
          simp only [hNext, Option.some.injEq] at h
          subst h
          exact ⟨rfl, ⟨base, hDone⟩, fun other hOther => by simp_all⟩
      | loop => simp [hNext] at h

theorem leading_none {done rest : List Name} {base : Path} (hDone : tree.stat done = .found base)
    (h : leading tree done rest = none) :
    ∃ front name behind base, done ++ rest = front ++ name :: behind ∧ tree.stat front = .found base ∧
      tree.stat (front ++ [name]) = .loop := by
  induction rest generalizing done base with
  | nil => cases h
  | cons name rest ih =>
      rw [leading] at h
      cases hNext : tree.stat (done ++ [name]) with
      | found place =>
          simp only [hNext] at h
          have hNone := ih hNext h
          rwa [List.append_assoc, List.singleton_append] at hNone
      | noEntry => simp [hNext] at h
      | notDirectory => simp [hNext] at h
      | loop => exact ⟨done, name, rest, base, rfl, hDone, hNext⟩

/-- A slash at the end makes a difference only behind a file. -/
theorem stat_of_lookup {path : FsPath} {reach : Reach} (h : tree.stat path.lookupNames = reach)
    (hReach : reach ≠ .notDirectory) : tree.stat path.names = reach := by
  unfold FsPath.lookupNames at h
  by_cases hTrailing : path.trailing = true
  · rw [if_pos hTrailing] at h
    rcases @LinkedTree.stat_slash tree path.names with hSame | ⟨-, hOther⟩
    · rwa [← hSame]
    · exact absurd (h.symm.trans hOther) hReach
  · rwa [if_neg hTrailing, List.append_nil] at h

theorem lookup_ne_loop {path : FsPath} {place : Path} (h : tree.Resolves path.names place) :
    tree.stat path.lookupNames ≠ .loop := by
  intro hLoop
  have hNames := stat_of_lookup hLoop Reach.noConfusion
  obtain ⟨front, rest, base, hSplit, hFront, -, hNext⟩ := h
  cases rest with
  | nil =>
      rw [List.append_nil] at hSplit
      rw [hSplit, hFront] at hNames
      cases hNames
  | cons name rest =>
      have hMissing := @LinkedTree.stat_append_fails tree _ (LinkedTree.not_found_of_missing (hNext name rfl)) rest
      rw [List.append_assoc, List.singleton_append, ← hSplit, hNames] at hMissing
      rcases hNext name rfl with h | h <;> rw [h] at hMissing <;> cases hMissing

/-- The canonical path is the place that the path resolves to. A slash at the end is kept
only where nothing stands. -/
theorem weaklyCanonical_iff {path canon : FsPath} :
    weaklyCanonical tree path = some canon ↔
      tree.Resolves path.names canon.names ∧
        (canon.trailing = true ↔ path.trailing = true ∧ ∀ place, tree.stat path.lookupNames ≠ .found place) := by
  have hMissing : (∀ place, tree.stat path.lookupNames ≠ .found place) → tree.stat path.lookupNames ≠ .loop →
      weaklyCanonical tree path = (leading tree [] path.names).bind fun split =>
        match tree.stat split.1 with
        | .found base => some ⟨base ++ split.2, path.trailing⟩
        | _ => none := by
    intro hFound hLoop
    unfold weaklyCanonical
    cases hStat : tree.stat path.lookupNames with
    | found place => exact absurd hStat (hFound place)
    | loop => exact absurd hStat hLoop
    | noEntry => rfl
    | notDirectory => rfl
  by_cases hFound : ∃ place, tree.stat path.lookupNames = .found place
  · obtain ⟨place, hPlace⟩ := hFound
    have hResolves := LinkedTree.resolves_of_found (stat_of_lookup hPlace Reach.noConfusion)
    rw [weaklyCanonical, hPlace]
    constructor
    · intro h
      obtain rfl := Option.some.inj h
      exact ⟨hResolves, by simp⟩
    · rintro ⟨hCanon, hTrailing⟩
      have hFalse : canon.trailing = false := by simpa using hTrailing
      rw [hResolves.unique hCanon, ← hFalse]
  · rw [not_exists] at hFound
    by_cases hLoop : tree.stat path.lookupNames = .loop
    · rw [weaklyCanonical, hLoop]
      exact iff_of_false (by simp) fun h => lookup_ne_loop h.1 hLoop
    rw [hMissing hFound hLoop]
    have hSame : (canon.trailing = true ↔ path.trailing = true ∧ ∀ place, tree.stat path.lookupNames ≠ .found place) ↔
        canon.trailing = path.trailing := by
      simp only [hFound, implies_true, and_true, Bool.coe_iff_coe, ne_eq, not_false_eq_true]
    rw [hSame]
    cases hLeading : leading tree [] path.names with
    | none =>
        obtain ⟨front, name, behind, base, hNames, hFront, hLoop⟩ := leading_none LinkedTree.stat_nil hLeading
        refine iff_of_false (by simp) fun h => ?_
        rw [← List.nil_append path.names, hNames] at h
        exact h.1.no_loop hFront hLoop
    | some split =>
        obtain ⟨hNames, ⟨base, hBase⟩, hNext⟩ := leading_some LinkedTree.stat_nil hLeading
        have hResolves : tree.Resolves path.names (base ++ split.2) := ⟨split.1, split.2, base, hNames, hBase, rfl, hNext⟩
        simp only [Option.bind_some, hBase]
        constructor
        · intro h
          obtain rfl := Option.some.inj h
          exact ⟨hResolves, rfl⟩
        · rintro ⟨hCanon, hTrailing⟩
          rw [hResolves.unique hCanon, ← hTrailing]

end Canonical

/-! ## The checks for links -/

section Links

variable {tree : LinkedTree} {path : FsPath}

theorem checkLink_eq_none {error : Bytes} :
    checkLink tree error path = none ↔
      tree.lstat path.lookupNames = .noEntry ∨
        ∃ place, tree.lstat path.lookupNames = .found place ∧ tree.isLink place = false := by
  unfold checkLink
  cases tree.lstat path.lookupNames with
  | found place => simp
  | noEntry => simp
  | notDirectory => simp
  | loop => simp

theorem mem_parents {q : List Name} (h : q <+: path.names) : ⟨q, false⟩ ∈ parents path ∨ ⟨q, false⟩ = path := by
  obtain ⟨names, trailing⟩ := path
  cases trailing with
  | true =>
      refine .inl ?_
      rw [parents, List.takeWhile_append_of_pos (by simp)]
      exact List.mem_append_left _ (List.mem_map_of_mem ((List.mem_inits _ _).mpr h))
  | false =>
      obtain rfl | ⟨front, name, rfl⟩ := List.eq_nil_or_concat' names
      · exact .inr (by rw [List.prefix_nil.mp h])
      rcases List.prefix_concat_iff.mp h with rfl | hFront
      · exact .inr rfl
      refine .inl ?_
      have hBefore : ∀ p ∈ front.inits.map (FsPath.mk · false), decide (p ≠ (⟨front ++ [name], false⟩ : FsPath)) = true := by
        rintro p hp
        obtain ⟨r, hr, rfl⟩ := List.mem_map.mp hp
        have hLength := ((List.mem_inits _ _).mp hr).length_le
        rw [decide_eq_true_iff]
        intro hSame
        have hNames := congrArg (List.length ∘ FsPath.names) hSame
        simp only [Function.comp_apply, List.length_append, List.length_singleton] at hNames
        omega
      rw [parents, List.inits_append, List.map_append, List.append_assoc, List.takeWhile_append_of_pos hBefore]
      exact List.mem_append_left _ (List.mem_map_of_mem ((List.mem_inits _ _).mpr hFront))

theorem of_mem_parents {p : FsPath} (h : p ∈ parents path) : p.names <+: path.names ∧ p.trailing = false := by
  have hOther := List.mem_takeWhile_imp h
  rcases List.mem_append.mp (List.takeWhile_subset _ h) with hFront | hSelf
  · obtain ⟨q, hq, rfl⟩ := List.mem_map.mp hFront
    exact ⟨(List.mem_inits _ _).mp hq, rfl⟩
  · simp [List.mem_singleton.mp hSelf] at hOther

/-- What the two checks see to: no link stands on the way, nor at its end. -/
theorem plain_of_checks {final component : Bytes} (hNames : ∀ name ∈ path.names, EntryName name)
    (hFinal : checkLink tree final path = none)
    (hParents : ∀ p ∈ parents path, checkLink tree component p = none) : tree.Plain path.names := by
  have hCheck : ∀ q, q <+: path.names → ∀ place, tree.lstat q = .found place → tree.isLink place = false := by
    intro q hq place hFound
    have hNone : ∃ error, checkLink tree error ⟨q, false⟩ = none := by
      rcases mem_parents hq with hMem | hSelf
      · exact ⟨component, hParents _ hMem⟩
      · exact ⟨final, by rw [hSelf]; exact hFinal⟩
    obtain ⟨error, hNone⟩ := hNone
    have hLookup : (⟨q, false⟩ : FsPath).lookupNames = q := by simp [FsPath.lookupNames]
    rw [checkLink_eq_none, hLookup, hFound] at hNone
    rcases hNone with h | ⟨other, h, hLink⟩
    · cases h
    · cases h
      exact hLink
  suffices hAll : ∀ q, q <+: path.names → ∀ p, p <+: q → tree.isLink p = false from fun q hq => hAll q hq q List.prefix_rfl
  intro q
  induction q using List.reverseRecOn with
  | nil =>
      intro _ p hp
      simp [List.prefix_nil.mp hp, LinkedTree.isLink, tree.root]
  | append_singleton q name ih =>
      intro hq p hp
      have hFront := ih ((List.prefix_append q [name]).trans hq)
      rcases List.prefix_concat_iff.mp hp with rfl | hBefore
      · have hClear : ∀ r, r <+: q ++ [name] → r ≠ q ++ [name] → tree.isLink r = false := fun r hr hOther =>
          hFront r ((List.prefix_concat_iff.mp hr).resolve_left hOther)
        rcases LinkedTree.lstat_plain (fun other h => hNames other (hq.subset h)) hClear with ⟨hFound, -⟩ | ⟨-, hNone⟩
        · exact hCheck _ hq _ hFound
        · simp [LinkedTree.isLink, hNone]
      · exact hFront p hBefore

theorem lstat_lookup (hNames : ∀ name ∈ path.names, EntryName name) (hPlain : tree.Plain path.names) :
    tree.lstat path.lookupNames = tree.stat path.lookupNames := by
  refine LinkedTree.lstat_eq_stat_of_plain (fun place => ?_) hNames hPlain
  cases path.trailing <;> exact ⟨.found place, by simp [LinkedTree.walk], by simp [LinkedTree.walk]⟩

/-- A path without links passes as long as nothing is there. -/
theorem checks_of_plain {final component : Bytes} (hNames : ∀ name ∈ path.names, EntryName name)
    (hPlain : tree.Plain path.names) (hMissing : tree.stat path.names = .noEntry) :
    checkLink tree final path = none ∧ ∀ p ∈ parents path, checkLink tree component p = none := by
  constructor
  · rw [checkLink_eq_none]
    refine .inl ?_
    rw [lstat_lookup hNames hPlain, FsPath.lookupNames, LinkedTree.stat_append_fails (by simp [hMissing]), hMissing]
  · intro p hp
    obtain ⟨⟨rest, hRest⟩, hTrailing⟩ := of_mem_parents hp
    have hLookup : p.lookupNames = p.names := by simp [FsPath.lookupNames, hTrailing]
    have hFront : ∀ name ∈ p.names, EntryName name := fun name h => hNames name (hRest ▸ List.mem_append_left _ h)
    have hFrontPlain : tree.Plain p.names := fun q hq => hPlain q (hq.trans ⟨rest, hRest⟩)
    rw [checkLink_eq_none, lstat_lookup hFront hFrontPlain, hLookup]
    rcases LinkedTree.stat_plain hFront hFrontPlain with ⟨hFound, -⟩ | ⟨hNothing | hNothing, -⟩
    · exact .inr ⟨p.names, hFound, hFrontPlain p.names List.prefix_rfl⟩
    · exact .inl hNothing
    · have hSame := @LinkedTree.stat_append_fails tree p.names (by simp [hNothing]) rest
      rw [hRest, hMissing, hNothing] at hSame
      cases hSame

end Links

/-! ## What is accepted -/

section Accepted

variable {tree : LinkedTree} {cwd : Option { place : Path // tree.entry place = some .directory }} {path managedRoot : Bytes}

theorem ok_iff :
    (validateManagedPath tree cwd path managedRoot).ok = true ↔
      checkTexts path managedRoot = none ∧
        ∃ rootAbs, absolute tree cwd managedRoot = some rootAbs ∧
          checkLink tree (bytes "final path is symlink") (.ofText path) = none ∧
          (∀ p ∈ parents (.ofText path), checkLink tree (bytes "parent component is symlink") p = none) ∧
          ∃ canon rootCanon, weaklyCanonical tree (.ofText path) = some canon ∧
            weaklyCanonical tree rootAbs = some rootCanon ∧ below canon rootCanon := by
  unfold validateManagedPath
  dsimp only
  cases checkTexts path managedRoot with
  | some error => simp
  | none =>
      cases absolute tree cwd managedRoot with
      | none => simp
      | some rootAbs =>
          cases checkLink tree (bytes "final path is symlink") (.ofText path) with
          | some error => simp
          | none =>
              simp only [true_and, Option.some.injEq, exists_eq_left']
              rw [← List.findSome?_eq_none_iff]
              cases (parents (.ofText path)).findSome? (checkLink tree (bytes "parent component is symlink")) with
              | some error => simp
              | none =>
                  cases weaklyCanonical tree (.ofText path) with
                  | none => simp
                  | some canon =>
                      cases weaklyCanonical tree rootAbs with
                      | none => simp
                      | some rootCanon =>
                          simp only [true_and, Option.some.injEq, exists_and_left, exists_eq_left', below]
                          by_cases hSame : canon.text = rootCanon.text
                          · simp [hSame]
                          · rw [if_neg hSame, ← List.isPrefixOf_iff_prefix]
                            simp only [hSame, ne_eq, not_false_eq_true, true_and]
                            generalize List.isPrefixOf _ canon.text = inside
                            cases inside <;> simp

/-- The path leads strictly below the root, over no link. -/
def Confined (tree : LinkedTree) (cwd : Option { place : Path // tree.entry place = some .directory })
    (path managedRoot : Bytes) : Prop :=
  ∃ rootAbs rootPlace place, absolute tree cwd managedRoot = some rootAbs ∧ tree.Resolves rootAbs.names rootPlace ∧
    tree.Resolves (textNames path) place ∧ rootPlace <+: place ∧ rootPlace ≠ place ∧
    ∀ q, q <+: textNames path → tree.isLink q = false

/-- The path is the root itself with a slash behind it, and nothing is there. -/
def MissingRoot (tree : LinkedTree) (cwd : Option { place : Path // tree.entry place = some .directory })
    (path managedRoot : Bytes) : Prop :=
  checkTexts path managedRoot = none ∧ (FsPath.ofText path).trailing = true ∧ tree.Plain (textNames path) ∧
    tree.stat (textNames path) = .noEntry ∧
    ∃ rootAbs, absolute tree cwd managedRoot = some rootAbs ∧ rootAbs.trailing = false ∧
      tree.Resolves rootAbs.names (textNames path)

theorem entryName_of_absolute {rootAbs : FsPath} (hTexts : hasDisallowedComponent managedRoot = none)
    (h : absolute tree cwd managedRoot = some rootAbs) {name : Name} (hMem : name ∈ rootAbs.names) : EntryName name := by
  unfold absolute at h
  by_cases hSlash : managedRoot.head? = some slash
  · rw [if_pos hSlash, Option.some.injEq] at h
    subst h
    exact entryName_of_mem_textNames hTexts hMem
  · rw [if_neg hSlash, Option.map_eq_some_iff] at h
    obtain ⟨directory, -, rfl⟩ := h
    rcases List.mem_append.mp hMem with hFront | hBehind
    · exact LinkedTree.entryName_of_mem (by rw [directory.2]; rfl) hFront
    · exact entryName_of_mem_textNames hTexts hBehind

/-- Where nothing is at the end of a path without links, the path resolves to itself. -/
theorem resolves_of_missing {names : List Name} (hNames : ∀ name ∈ names, EntryName name) (hPlain : tree.Plain names)
    (hMissing : tree.stat names = .noEntry) : tree.Resolves names names := by
  have hLookup : (⟨names, false⟩ : FsPath).lookupNames = names := by simp [FsPath.lookupNames]
  cases hCanon : weaklyCanonical tree ⟨names, false⟩ with
  | some canon =>
      have hResolves := (weaklyCanonical_iff.mp hCanon).1
      have hSame := hResolves.eq_of_plain hNames hPlain
      rwa [hSame] at hResolves
  | none =>
      unfold weaklyCanonical at hCanon
      rw [hLookup, hMissing] at hCanon
      cases hLeading : leading tree [] names with
      | none =>
          obtain ⟨front, name, behind, -, hSplit, -, hLoop⟩ := leading_none LinkedTree.stat_nil hLeading
          have hFront : front ++ [name] <+: names := ⟨behind, by simpa using hSplit.symm⟩
          rcases LinkedTree.stat_plain (fun other h => hNames other (hFront.subset h)) fun q hq => hPlain q (hq.trans hFront)
            with ⟨h, -⟩ | ⟨h | h, -⟩ <;> rw [hLoop] at h <;> cases h
      | some split =>
          obtain ⟨-, ⟨base, hBase⟩, -⟩ := leading_some LinkedTree.stat_nil hLeading
          simp [hLeading, hBase] at hCanon

theorem ok_of_missingRoot (h : MissingRoot tree cwd path managedRoot) :
    (validateManagedPath tree cwd path managedRoot).ok = true := by
  obtain ⟨hTexts, hTrailing, hPlain, hMissing, rootAbs, hAbs, hRootTrailing, hRoot⟩ := h
  have hNames : ∀ name ∈ textNames path, EntryName name := fun name hName =>
    entryName_of_mem_textNames (checkTexts_eq_none hTexts).2.1 hName
  have hStat : ∀ place, tree.stat (FsPath.ofText path).lookupNames ≠ .found place := by
    intro place hFound
    have hOther := stat_of_lookup hFound Reach.noConfusion
    rw [FsPath.ofText, hMissing] at hOther
    cases hOther
  have hCanon : weaklyCanonical tree (.ofText path) = some ⟨textNames path, true⟩ :=
    weaklyCanonical_iff.mpr ⟨resolves_of_missing hNames hPlain hMissing, by simp [hTrailing, hStat]⟩
  have hRootCanon : weaklyCanonical tree rootAbs = some ⟨textNames path, false⟩ :=
    weaklyCanonical_iff.mpr ⟨hRoot, by simp [hRootTrailing]⟩
  have hNe : textNames path ≠ [] := by
    intro hNil
    simp [FsPath.ofText, hNil] at hTrailing
  obtain ⟨hFinal, hParents⟩ := @checks_of_plain tree (.ofText path) _ _ hNames hPlain hMissing
  exact ok_iff.mpr ⟨hTexts, rootAbs, hAbs, hFinal, hParents, _, _, hCanon, hRootCanon,
    (below_iff hNames hNames).mpr (.inr ⟨rfl, hNe, rfl, rfl⟩)⟩

/-- A path that is accepted leads strictly below the root, over no link, but for the root's
own path with a slash behind it while the root is missing. -/
theorem validateManagedPath_iff (tree : LinkedTree) (cwd : Option { place : Path // tree.entry place = some .directory })
    (path managedRoot : Bytes) :
    ((validateManagedPath tree cwd path managedRoot).ok = true → Confined tree cwd path managedRoot) ↔
      ¬MissingRoot tree cwd path managedRoot := by
  constructor
  · intro h hMissing
    obtain ⟨rootAbs, rootPlace, place, hAbs, hRoot, hPlace, -, hOther, -⟩ := h (ok_of_missingRoot hMissing)
    obtain ⟨hTexts, -, hPlain, hStat, rootAbs', hAbs', -, hRoot'⟩ := hMissing
    have hNames : ∀ name ∈ textNames path, EntryName name := fun name hName =>
      entryName_of_mem_textNames (checkTexts_eq_none hTexts).2.1 hName
    rw [hAbs, Option.some.injEq] at hAbs'
    subst hAbs'
    exact hOther ((hRoot.unique hRoot').trans (hPlace.eq_of_plain hNames hPlain).symm)
  · intro hNot hOk
    obtain ⟨hTexts, rootAbs, hAbs, hFinal, hParents, canon, rootCanon, hCanon, hRootCanon, hBelow⟩ := ok_iff.mp hOk
    obtain ⟨-, hPathTexts, hRootTexts⟩ := checkTexts_eq_none hTexts
    have hNames : ∀ name ∈ textNames path, EntryName name := fun name hName => entryName_of_mem_textNames hPathTexts hName
    have hPlain : tree.Plain (textNames path) := plain_of_checks hNames hFinal hParents
    obtain ⟨hResolves, hTrailing⟩ := weaklyCanonical_iff.mp hCanon
    obtain ⟨hRootResolves, hRootTrailing⟩ := weaklyCanonical_iff.mp hRootCanon
    have hSelf : canon.names = textNames path := hResolves.eq_of_plain hNames hPlain
    rw [below_iff (fun name => LinkedTree.entryName_of_resolves hNames hResolves)
      (fun name => LinkedTree.entryName_of_resolves (fun name => entryName_of_absolute hRootTexts hAbs) hRootResolves)] at hBelow
    rcases hBelow with ⟨hInside, hOther⟩ | ⟨hSame, hNe, hSlash, hRootSlash⟩
    · exact ⟨rootAbs, rootCanon.names, canon.names, hAbs, hRootResolves, hResolves, hInside, hOther, hPlain⟩
    · rw [hSame, hSelf] at hRootResolves
      have hMissing : tree.stat (textNames path) = .noEntry := by
        rcases checkLink_eq_none.mp hFinal with hNothing | ⟨place, hFound, -⟩
        · rw [lstat_lookup hNames hPlain] at hNothing
          exact stat_of_lookup hNothing Reach.noConfusion
        · rw [lstat_lookup hNames hPlain] at hFound
          exact absurd hFound ((hTrailing.mp hSlash).2 place)
      have hRootFound : ∀ place, tree.stat rootAbs.lookupNames ≠ .found place := by
        intro place hFound
        have hPlace := stat_of_lookup hFound Reach.noConfusion
        have hExists := LinkedTree.follow_exists (by rw [tree.root]; rfl) hPlace
        rw [(LinkedTree.resolves_of_found hPlace).unique hRootResolves] at hExists
        rcases LinkedTree.stat_plain hNames hPlain with ⟨hThere, -⟩ | ⟨-, hNone⟩
        · rw [hMissing] at hThere
          cases hThere
        · simp [hNone] at hExists
      have hRootTrailing' : rootAbs.trailing = false := by
        by_contra hTrue
        rw [hRootTrailing.mpr ⟨by simpa using hTrue, hRootFound⟩] at hRootSlash
        cases hRootSlash
      exact absurd ⟨hTexts, (hTrailing.mp hSlash).1, hPlain, hMissing, rootAbs, hAbs, hRootTrailing', hRootResolves⟩ hNot

end Accepted

/-- Only `/srv` is there. -/
def srvTree : LinkedTree where
  entry place := if place = [] ∨ place = [bytes "srv"] then some .directory else none
  root := rfl
  closed place name h := by
    by_cases hSrv : place ++ [name] = [bytes "srv"]
    · cases place with
      | nil => simp
      | cons other place => simp at hSrv
    · simp [hSrv] at h
  named place name h := by
    by_cases hSrv : place ++ [name] = [bytes "srv"]
    · cases place with
      | nil =>
          obtain rfl : name = bytes "srv" := by simpa using hSrv
          exact by decide
      | cons other place => simp at hSrv
    · simp [hSrv] at h

/-- With a slash behind it the missing root is accepted as a path inside of itself. -/
theorem validateManagedPath_missing :
    ¬((validateManagedPath srvTree none (bytes "/srv/a/") (bytes "/srv/a")).ok = true →
      Confined srvTree none (bytes "/srv/a/") (bytes "/srv/a")) := by
  intro h
  obtain ⟨rootAbs, rootPlace, place, hAbs, hRoot, hPlace, -, hOther, -⟩ := h (by decide)
  have hSame : rootAbs.names = textNames (bytes "/srv/a/") := by
    have hText : absolute srvTree none (bytes "/srv/a") = some ⟨textNames (bytes "/srv/a/"), false⟩ := by decide
    rw [hText, Option.some.injEq] at hAbs
    rw [← hAbs]
  rw [hSame] at hRoot
  exact hOther (hRoot.unique hPlace)

end ContainerCP.Access.ManagedPathValidator
