import ContainerCP.Posix.LexicalPath

/-! How the system looks a path up in a tree with symbolic links that lead anywhere: up
and down, from the root and from where they stand, in a circle and to nothing. -/
namespace ContainerCP.Posix

inductive TreeEntry where
  | file
  | directory
  | link (target : Bytes)
  deriving DecidableEq

/-- A name that an entry can have. -/
def EntryName (name : Name) : Prop := name ≠ [] ∧ slash ∉ name ∧ name ≠ here ∧ name ≠ parent

instance (name : Name) : Decidable (EntryName name) := inferInstanceAs (Decidable (_ ∧ _))

/-- What stands at each place. Entries are in directories, under plain names. -/
structure LinkedTree where
  entry : Path → Option TreeEntry
  root : entry [] = some .directory
  closed : ∀ place name, (entry (place ++ [name])).isSome = true → entry place = some .directory
  named : ∀ place name, (entry (place ++ [name])).isSome = true → EntryName name

/-- How a lookup ends. -/
inductive Reach where
  | found (place : Path)
  | noEntry
  | notDirectory
  | loop
  deriving DecidableEq

namespace LinkedTree

variable (tree : LinkedTree)

def isLink (place : Path) : Bool :=
  match tree.entry place with
  | some (.link _) => true
  | _ => false

/-- The end of a lookup, or the link that it comes to. -/
inductive Stop where
  | ends (reach : Reach)
  | met (start : Path) (names : List Name)
  deriving DecidableEq

/-- Up to the first link. An empty name, as it stands behind a trailing slash, stays in
the directory. With `last` a link in the last place is followed. -/
def walk (last : Bool) : Path → List Name → Stop
  | directory, [] => .ends (.found directory)
  | directory, name :: rest =>
      if name = [] ∨ name = here then walk last directory rest
      else if name = parent then walk last directory.dropLast rest
      else
        match tree.entry (directory ++ [name]) with
        | none => .ends .noEntry
        | some .directory => walk last (directory ++ [name]) rest
        | some .file => .ends (if rest = [] then .found (directory ++ [name]) else .notDirectory)
        | some (.link target) =>
            if rest = [] ∧ last = false then .ends (.found (directory ++ [name]))
            else .met (if target.head? = some slash then [] else directory) (target.splitOn slash ++ rest)

/-- The lookup with so many links to follow. -/
def follow (last : Bool) : Nat → Path → List Name → Reach
  | links, directory, names =>
      match tree.walk last directory names with
      | .ends reach => reach
      | .met start names =>
          match links with
          | 0 => .loop
          | links + 1 => follow last links start names

/-- `stat`, from the root. -/
def stat (names : List Name) : Reach := tree.follow true 40 [] names

/-- `lstat`, from the root. -/
def lstat (names : List Name) : Reach := tree.follow false 40 [] names

/-- What exists of the path is followed, and the names behind that are appended. -/
def Resolves (names : List Name) (place : Path) : Prop :=
  ∃ front rest base, names = front ++ rest ∧ tree.stat front = .found base ∧ place = base ++ rest ∧
    ∀ name ∈ rest.head?, tree.stat (front ++ [name]) = .noEntry ∨ tree.stat (front ++ [name]) = .notDirectory

variable {tree} {last : Bool} {directory place : Path} {names : List Name}

theorem stat_nil : tree.stat [] = .found [] := by
  rw [stat, follow, walk]

theorem resolves_of_found (h : tree.stat names = .found place) :
    tree.Resolves names place :=
  ⟨names, [], place, by simp, h, by simp, by simp⟩

/-! ## Longer paths -/

theorem walk_append_met {start : Path} {more : List Name} (h : tree.walk true directory names = .met start more)
    (rest : List Name) : tree.walk true directory (names ++ rest) = .met start (more ++ rest) := by
  induction names generalizing directory with
  | nil => cases h
  | cons name names ih =>
      rw [walk] at h
      rw [List.cons_append, walk]
      by_cases hStay : name = [] ∨ name = here
      · rw [if_pos hStay] at h ⊢
        exact ih h
      rw [if_neg hStay] at h ⊢
      by_cases hUp : name = parent
      · rw [if_pos hUp] at h ⊢
        exact ih h
      rw [if_neg hUp] at h ⊢
      cases hEntry : tree.entry (directory ++ [name]) with
      | none => simp [hEntry] at h
      | some entry =>
          cases entry with
          | file => simp [hEntry] at h
          | directory =>
              simp only [hEntry] at h ⊢
              exact ih h
          | link target =>
              simp only [hEntry, Bool.true_eq_false, and_false, if_false, Stop.met.injEq] at h ⊢
              obtain ⟨rfl, rfl⟩ := h
              exact ⟨rfl, by simp⟩

/-- A walk that fails fails with more names too. -/
theorem walk_append_fails {reach : Reach} (h : tree.walk true directory names = .ends reach)
    (hFails : ∀ place, reach ≠ .found place) (rest : List Name) :
    tree.walk true directory (names ++ rest) = .ends reach := by
  induction names generalizing directory with
  | nil =>
      rw [walk, Stop.ends.injEq] at h
      exact absurd h.symm (hFails directory)
  | cons name names ih =>
      rw [walk] at h
      rw [List.cons_append, walk]
      by_cases hStay : name = [] ∨ name = here
      · rw [if_pos hStay] at h ⊢
        exact ih h
      rw [if_neg hStay] at h ⊢
      by_cases hUp : name = parent
      · rw [if_pos hUp] at h ⊢
        exact ih h
      rw [if_neg hUp] at h ⊢
      cases hEntry : tree.entry (directory ++ [name]) with
      | none => simpa [hEntry] using h
      | some entry =>
          cases entry with
          | file =>
              simp only [hEntry, Stop.ends.injEq] at h ⊢
              by_cases hLast : names = []
              · rw [if_pos hLast] at h
                exact absurd h.symm (hFails _)
              · rw [if_neg hLast] at h
                rw [if_neg (by simp [hLast])]
                exact h
          | directory =>
              simp only [hEntry] at h ⊢
              exact ih h
          | link target =>
              simp [hEntry] at h

/-- A path of which the front is missing is missing. -/
theorem follow_append_fails {links : Nat} (h : ∀ place, tree.follow true links directory names ≠ .found place)
    (rest : List Name) : tree.follow true links directory (names ++ rest) = tree.follow true links directory names := by
  induction links generalizing directory names with
  | zero =>
      rw [follow] at h ⊢
      rw [follow]
      cases hWalk : tree.walk true directory names with
      | ends reach =>
          simp only [hWalk] at h
          simp only [walk_append_fails hWalk h]
      | met start more => simp only [walk_append_met hWalk]
  | succ links ih =>
      rw [follow] at h ⊢
      rw [follow]
      cases hWalk : tree.walk true directory names with
      | ends reach =>
          simp only [hWalk] at h
          simp only [walk_append_fails hWalk h]
      | met start more =>
          simp only [hWalk] at h
          simp only [walk_append_met hWalk]
          exact ih h

theorem stat_append_fails (h : ∀ place, tree.stat names ≠ .found place) (rest : List Name) :
    tree.stat (names ++ rest) = tree.stat names :=
  follow_append_fails h rest

/-- A front that exists cannot go past one behind which something is missing. -/
theorem length_le_of_missing {front front' rest rest' : List Name} {reach : Reach}
    (hNames : front ++ rest = front' ++ rest') (hFront' : tree.stat front' = .found place)
    (hNext : ∀ name ∈ rest.head?, tree.stat (front ++ [name]) = reach) (hFails : ∀ place, reach ≠ .found place) :
    front'.length ≤ front.length := by
  rcases List.append_eq_append_iff.mp hNames with ⟨more, rfl, rfl⟩ | ⟨more, rfl, -⟩
  · cases more with
    | nil => simp
    | cons name more =>
        have hMissing := hNext name rfl
        have hLonger := @stat_append_fails tree (front ++ [name]) (by rw [hMissing]; exact hFails) more
        rw [List.append_assoc, List.singleton_append, hFront', hMissing] at hLonger
        exact absurd hLonger.symm (hFails place)
  · simp

/-- Where a path stops to exist. -/
theorem front_unique {front front' rest rest' : List Name} {base base' : Path} (hNames : front ++ rest = front' ++ rest')
    (hFront : tree.stat front = .found base) (hFront' : tree.stat front' = .found base')
    (hNext : ∀ name ∈ rest.head?, ∀ place, tree.stat (front ++ [name]) ≠ .found place)
    (hNext' : ∀ name ∈ rest'.head?, ∀ place, tree.stat (front' ++ [name]) ≠ .found place) :
    front = front' ∧ rest = rest' := by
  have hShort : ∀ {front front' rest rest' : List Name} {base' : Path}, front ++ rest = front' ++ rest' →
      tree.stat front' = .found base' →
      (∀ name ∈ rest.head?, ∀ place, tree.stat (front ++ [name]) ≠ .found place) → front'.length ≤ front.length := by
    intro front front' rest rest' base' hNames hFront' hNext
    cases rest with
    | nil =>
        have hLength := congrArg List.length hNames
        rw [List.append_nil, List.length_append] at hLength
        omega
    | cons name rest =>
        exact length_le_of_missing hNames hFront' (by simp) (hNext name rfl)
  exact List.append_inj hNames (Nat.le_antisymm (hShort hNames.symm hFront hNext') (hShort hNames hFront' hNext))

theorem not_found_of_missing {names : List Name} (h : tree.stat names = .noEntry ∨ tree.stat names = .notDirectory)
    (place : Path) : tree.stat names ≠ .found place := by
  rcases h with h | h <;> rw [h] <;> exact Reach.noConfusion

/-- A path resolves to one place only. -/
theorem Resolves.unique {place place' : Path} (h : tree.Resolves names place) (h' : tree.Resolves names place') :
    place = place' := by
  obtain ⟨front, rest, base, hNames, hFront, rfl, hNext⟩ := h
  obtain ⟨front', rest', base', hNames', hFront', rfl, hNext'⟩ := h'
  obtain ⟨rfl, rfl⟩ := front_unique (hNames.symm.trans hNames') hFront hFront'
    (fun name hName => not_found_of_missing (hNext name hName)) fun name hName => not_found_of_missing (hNext' name hName)
  rw [hFront, Reach.found.injEq] at hFront'
  rw [hFront']

/-- A path that resolves leads into no circle. -/
theorem Resolves.no_loop {front behind : List Name} {name : Name} {base : Path}
    (h : tree.Resolves (front ++ name :: behind) place) (hFront : tree.stat front = .found base) :
    tree.stat (front ++ [name]) ≠ .loop := by
  intro hLoop
  obtain ⟨front', rest', base', hNames, hFront', -, hNext'⟩ := h
  have hNext : ∀ other ∈ (name :: behind).head?, ∀ place, tree.stat (front ++ [other]) ≠ .found place := by
    rintro other hOther place
    obtain rfl : name = other := by simpa using hOther
    rw [hLoop]
    exact Reach.noConfusion
  obtain ⟨rfl, rfl⟩ := front_unique hNames hFront hFront' hNext fun other hOther => not_found_of_missing (hNext' other hOther)
  have hMissing := hNext' name rfl
  rw [hLoop] at hMissing
  simp at hMissing

/-! ## A slash at the end -/

/-- With a slash at its end a path leads to the same place, unless that is a file. -/
theorem walk_slash (directory : Path) (names : List Name) :
    (∃ start more, tree.walk true directory names = .met start more ∧
        tree.walk true directory (names ++ [[]]) = .met start (more ++ [[]])) ∨
      ∃ reach, tree.walk true directory names = .ends reach ∧
        (tree.walk true directory (names ++ [[]]) = .ends reach ∨
          (∃ place, reach = .found place) ∧ tree.walk true directory (names ++ [[]]) = .ends .notDirectory) := by
  induction names generalizing directory with
  | nil => exact .inr ⟨.found directory, rfl, .inl (by simp [walk])⟩
  | cons name names ih =>
      rw [walk, List.cons_append, walk]
      by_cases hStay : name = [] ∨ name = here
      · rw [if_pos hStay, if_pos hStay]
        exact ih directory
      rw [if_neg hStay, if_neg hStay]
      by_cases hUp : name = parent
      · rw [if_pos hUp, if_pos hUp]
        exact ih directory.dropLast
      rw [if_neg hUp, if_neg hUp]
      cases tree.entry (directory ++ [name]) with
      | none => exact .inr ⟨.noEntry, rfl, .inl rfl⟩
      | some entry =>
          cases entry with
          | directory => exact ih (directory ++ [name])
          | file =>
              refine .inr ⟨_, rfl, ?_⟩
              by_cases hLast : names = []
              · exact .inr ⟨⟨directory ++ [name], by simp [hLast]⟩, by simp⟩
              · exact .inl (by simp [hLast])
          | link target =>
              refine .inl ⟨if target.head? = some slash then [] else directory, target.splitOn slash ++ names, ?_, ?_⟩
              · simp
              · simp

theorem follow_slash (links : Nat) (directory : Path) (names : List Name) :
    tree.follow true links directory (names ++ [[]]) = tree.follow true links directory names ∨
      (∃ place, tree.follow true links directory names = .found place) ∧
        tree.follow true links directory (names ++ [[]]) = .notDirectory := by
  induction links generalizing directory names with
  | zero =>
      rw [follow, follow]
      rcases @walk_slash tree directory names with ⟨start, more, hWalk, hSlash⟩ | ⟨reach, hWalk, hSlash | ⟨hFound, hSlash⟩⟩
      · exact .inl (by simp only [hWalk, hSlash])
      · exact .inl (by simp only [hWalk, hSlash])
      · exact .inr (by simpa only [hWalk, hSlash, and_true] using hFound)
  | succ links ih =>
      rw [follow, follow]
      rcases @walk_slash tree directory names with ⟨start, more, hWalk, hSlash⟩ | ⟨reach, hWalk, hSlash | ⟨hFound, hSlash⟩⟩
      · simp only [hWalk, hSlash]
        exact ih start more
      · exact .inl (by simp only [hWalk, hSlash])
      · exact .inr (by simpa only [hWalk, hSlash, and_true] using hFound)

theorem stat_slash (names : List Name) :
    tree.stat (names ++ [[]]) = tree.stat names ∨
      (∃ place, tree.stat names = .found place) ∧ tree.stat (names ++ [[]]) = .notDirectory :=
  follow_slash 40 [] names

/-! ## What exists -/

/-- What stands below a place stands in directories. -/
theorem entry_of_append {more : List Name} (h : (tree.entry (place ++ more)).isSome = true) (hMore : more ≠ []) :
    tree.entry place = some .directory := by
  induction more using List.reverseRecOn with
  | nil => exact absurd rfl hMore
  | append_singleton more name ih =>
      rw [← List.append_assoc] at h
      have hAbove := tree.closed _ _ h
      by_cases hNil : more = []
      · simpa [hNil] using hAbove
      · exact ih (by rw [hAbove]; rfl) hNil

theorem entryName_of_mem {name : Name} (h : (tree.entry place).isSome = true) (hMem : name ∈ place) : EntryName name := by
  obtain ⟨front, rest, rfl⟩ := List.append_of_mem hMem
  apply tree.named front name
  by_cases hRest : rest = []
  · rwa [hRest] at h
  · have hSplit : front ++ name :: rest = (front ++ [name]) ++ rest := by simp
    rw [hSplit] at h
    rw [entry_of_append h hRest]
    rfl

theorem entry_dropLast (h : (tree.entry place).isSome = true) : (tree.entry place.dropLast).isSome = true := by
  obtain rfl | ⟨front, name, rfl⟩ := List.eq_nil_or_concat' place
  · exact h
  · rw [List.dropLast_concat, tree.closed front name h]
    rfl

theorem walk_exists (hDirectory : (tree.entry directory).isSome = true) :
    (∀ place, tree.walk last directory names = .ends (.found place) → (tree.entry place).isSome = true) ∧
      ∀ start more, tree.walk last directory names = .met start more → (tree.entry start).isSome = true := by
  induction names generalizing directory with
  | nil =>
      refine ⟨fun place h => ?_, fun start more h => by cases h⟩
      rw [walk, Stop.ends.injEq, Reach.found.injEq] at h
      rwa [← h]
  | cons name names ih =>
      rw [walk]
      by_cases hStay : name = [] ∨ name = here
      · rw [if_pos hStay]
        exact ih hDirectory
      rw [if_neg hStay]
      by_cases hUp : name = parent
      · rw [if_pos hUp]
        exact ih (entry_dropLast hDirectory)
      rw [if_neg hUp]
      cases hEntry : tree.entry (directory ++ [name]) with
      | none => simp
      | some entry =>
          have hSome : (tree.entry (directory ++ [name])).isSome = true := by simp [hEntry]
          cases entry with
          | directory => exact ih hSome
          | file =>
              refine ⟨fun place h => ?_, fun start more h => by cases h⟩
              rw [Stop.ends.injEq] at h
              by_cases hLast : names = []
              · rw [if_pos hLast, Reach.found.injEq] at h
                rwa [← h]
              · rw [if_neg hLast] at h
                cases h
          | link target =>
              by_cases hLast : names = [] ∧ last = false
              · simp only [if_pos hLast]
                refine ⟨fun place h => ?_, fun start more h => by cases h⟩
                rw [Stop.ends.injEq, Reach.found.injEq] at h
                rwa [← h]
              · simp only [if_neg hLast]
                refine ⟨fun place h => Stop.noConfusion h, fun start more h => ?_⟩
                rw [Stop.met.injEq] at h
                rw [← h.1]
                by_cases hRoot : target.head? = some slash
                · rw [if_pos hRoot, tree.root]
                  rfl
                · rwa [if_neg hRoot]

/-- What a lookup finds exists. -/
theorem follow_exists {links : Nat} (hDirectory : (tree.entry directory).isSome = true)
    (h : tree.follow last links directory names = .found place) : (tree.entry place).isSome = true := by
  induction links generalizing directory names with
  | zero =>
      rw [follow] at h
      cases hWalk : tree.walk last directory names with
      | ends reach =>
          simp only [hWalk] at h
          exact (walk_exists hDirectory).1 place (h ▸ hWalk)
      | met start more => simp [hWalk] at h
  | succ links ih =>
      rw [follow] at h
      cases hWalk : tree.walk last directory names with
      | ends reach =>
          simp only [hWalk] at h
          exact (walk_exists hDirectory).1 place (h ▸ hWalk)
      | met start more =>
          simp only [hWalk] at h
          exact ih ((walk_exists hDirectory).2 start more hWalk) h

theorem entryName_of_resolves (hNames : ∀ name ∈ names, EntryName name)
    (h : tree.Resolves names place) {name : Name} (hMem : name ∈ place) : EntryName name := by
  obtain ⟨front, rest, base, rfl, hFront, rfl, -⟩ := h
  rcases List.mem_append.mp hMem with hBase | hRest
  · have hExists := follow_exists (by rw [tree.root]; rfl) hFront
    exact entryName_of_mem hExists hBase
  · exact hNames name (List.mem_append_right _ hRest)

/-! ## Paths without links -/

/-- Without a link on its way a path leads to itself, or to nothing. -/
theorem walk_plain (hNames : ∀ name ∈ names, EntryName name)
    (hClear : ∀ q, q <+: names → q ≠ [] → last = true ∨ q ≠ names → tree.isLink (directory ++ q) = false)
    (hDirectory : (tree.entry directory).isSome = true) :
    (tree.walk last directory names = .ends (.found (directory ++ names)) ∧
        (tree.entry (directory ++ names)).isSome = true) ∨
      ((tree.walk last directory names = .ends .noEntry ∨ tree.walk last directory names = .ends .notDirectory) ∧
        tree.entry (directory ++ names) = none) := by
  induction names generalizing directory with
  | nil => exact .inl ⟨by rw [walk, List.append_nil], by rwa [List.append_nil]⟩
  | cons name names ih =>
      obtain ⟨hNe, -, hHere, hParent⟩ := hNames name List.mem_cons_self
      have hSplit : directory ++ name :: names = directory ++ [name] ++ names := by simp
      have hNothing : names ≠ [] → tree.entry (directory ++ [name]) ≠ some .directory →
          tree.entry (directory ++ name :: names) = none := by
        intro hMore hOther
        by_contra hSome
        rw [hSplit] at hSome
        exact hOther (entry_of_append (Option.isSome_iff_ne_none.mpr hSome) hMore)
      rw [walk, if_neg (by simp [hNe, hHere]), if_neg hParent]
      cases hEntry : tree.entry (directory ++ [name]) with
      | none =>
          refine .inr ⟨.inl rfl, ?_⟩
          by_cases hMore : names = []
          · rw [hMore, hEntry]
          · exact hNothing hMore (by simp [hEntry])
      | some entry =>
          cases entry with
          | directory =>
              rw [hSplit]
              refine ih (fun other h => hNames other (List.mem_cons_of_mem _ h)) (fun q hq hNil hLast => ?_) (by simp [hEntry])
              rw [List.append_assoc]
              refine hClear (name :: q) (List.prefix_cons_inj name |>.mpr hq) (List.cons_ne_nil _ _) (hLast.imp_right ?_)
              exact fun hOther hSame => hOther (List.cons.inj hSame).2
          | file =>
              by_cases hMore : names = []
              · exact .inl ⟨by simp [hMore], by simp [hMore, hEntry]⟩
              · exact .inr ⟨.inr (by simp [hMore]), hNothing hMore (by simp [hEntry])⟩
          | link target =>
              by_cases hLast : names = [] ∧ last = false
              · exact .inl ⟨by simp [hLast], by simp [hLast, hEntry]⟩
              · have hLink := hClear [name] (List.prefix_append [name] names) (List.cons_ne_nil _ _) (by
                  by_contra hBoth
                  simp only [not_or, Bool.not_eq_true, not_not] at hBoth
                  exact hLast ⟨(List.cons.inj hBoth.2).2.symm, hBoth.1⟩)
                simp [isLink, hEntry] at hLink

/-- The way of the path has no link, nor has its end. -/
def Plain (tree : LinkedTree) (names : List Name) : Prop := ∀ q, q <+: names → tree.isLink q = false

theorem stat_plain (hNames : ∀ name ∈ names, EntryName name) (h : tree.Plain names) :
    (tree.stat names = .found names ∧ (tree.entry names).isSome = true) ∨
      ((tree.stat names = .noEntry ∨ tree.stat names = .notDirectory) ∧ tree.entry names = none) := by
  rw [stat, follow]
  rcases @walk_plain tree true [] names hNames (fun q hq _ _ => h q hq) (by rw [tree.root]; rfl) with
    ⟨hWalk, hSome⟩ | ⟨hWalk | hWalk, hNone⟩
  · exact .inl ⟨by rw [hWalk]; rfl, hSome⟩
  · exact .inr ⟨.inl (by rw [hWalk]), hNone⟩
  · exact .inr ⟨.inr (by rw [hWalk]), hNone⟩

theorem lstat_plain (hNames : ∀ name ∈ names, EntryName name)
    (h : ∀ q, q <+: names → q ≠ names → tree.isLink q = false) :
    (tree.lstat names = .found names ∧ (tree.entry names).isSome = true) ∨
      ((tree.lstat names = .noEntry ∨ tree.lstat names = .notDirectory) ∧ tree.entry names = none) := by
  rw [lstat, follow]
  rcases @walk_plain tree false [] names hNames (fun q hq _ hLast => h q hq (hLast.resolve_left fun hSame => Bool.noConfusion hSame))
      (by rw [tree.root]; rfl) with ⟨hWalk, hSome⟩ | ⟨hWalk | hWalk, hNone⟩
  · exact .inl ⟨by rw [hWalk]; rfl, hSome⟩
  · exact .inr ⟨.inl (by rw [hWalk]), hNone⟩
  · exact .inr ⟨.inr (by rw [hWalk]), hNone⟩

/-- A path without links resolves to itself. -/
theorem Resolves.eq_of_plain (hNames : ∀ name ∈ names, EntryName name) (hPlain : tree.Plain names)
    (h : tree.Resolves names place) : place = names := by
  obtain ⟨front, rest, base, rfl, hFront, rfl, -⟩ := h
  have hFrontPlain := @stat_plain tree front (fun name hName => hNames name (List.mem_append_left _ hName))
    (fun q hq => hPlain q (hq.trans (List.prefix_append _ _)))
  rcases hFrontPlain with ⟨hSame, -⟩ | ⟨hMissing | hMissing, -⟩
  · rw [hFront, Reach.found.injEq] at hSame
    rw [hSame]
  · rw [hFront] at hMissing
    cases hMissing
  · rw [hFront] at hMissing
    cases hMissing

/-- Without links it makes no difference whether links are followed. -/
theorem walk_plain_same {more : List Name}
    (hMore : ∀ place, ∃ reach, tree.walk false place more = .ends reach ∧ tree.walk true place more = .ends reach)
    (hNames : ∀ name ∈ names, EntryName name)
    (hClear : ∀ q, q <+: names → q ≠ [] → tree.isLink (directory ++ q) = false) :
    ∃ reach, tree.walk false directory (names ++ more) = .ends reach ∧
      tree.walk true directory (names ++ more) = .ends reach := by
  induction names generalizing directory with
  | nil => exact hMore directory
  | cons name names ih =>
      obtain ⟨hNe, -, hHere, hParent⟩ := hNames name List.mem_cons_self
      have hStay : ¬(name = [] ∨ name = here) := by simp [hNe, hHere]
      simp only [List.cons_append, walk, if_neg hStay, if_neg hParent]
      have hLink := hClear [name] (List.prefix_append [name] names) (List.cons_ne_nil _ _)
      cases hEntry : tree.entry (directory ++ [name]) with
      | none => exact ⟨.noEntry, rfl, rfl⟩
      | some entry =>
          cases entry with
          | file => exact ⟨_, rfl, rfl⟩
          | directory =>
              refine ih (fun other h => hNames other (List.mem_cons_of_mem _ h)) fun q hq _ => ?_
              rw [List.append_assoc]
              exact hClear (name :: q) (List.prefix_cons_inj name |>.mpr hq) (List.cons_ne_nil _ _)
          | link target => simp [isLink, hEntry] at hLink

theorem lstat_eq_stat_of_plain {more : List Name}
    (hMore : ∀ place, ∃ reach, tree.walk false place more = .ends reach ∧ tree.walk true place more = .ends reach)
    (hNames : ∀ name ∈ names, EntryName name) (hPlain : tree.Plain names) :
    tree.lstat (names ++ more) = tree.stat (names ++ more) := by
  obtain ⟨reach, hFalse, hTrue⟩ := @walk_plain_same tree [] names more hMore hNames fun q hq _ => hPlain q hq
  rw [lstat, stat, follow, follow, hFalse, hTrue]

end LinkedTree

end ContainerCP.Posix
