import ContainerCP.Text.LineSearch

/-! The lookup of a database dump in the listing of a backup: `find_db_in_archive` with the
names that it tries, and `normalize_db_name`. -/
namespace ContainerCP.Migration

def slash : UInt8 := ascii '/'

def underscore : UInt8 := ascii '_'

/-! ## Entries -/

/-- The path without `./` in front. -/
def plainPath (entry : Bytes) : Bytes := if entry.take 5 = bytes "./db/" then bytes "db/" ++ entry.drop 5 else entry

/-- The type of the dump at a path, where it is one of the database: `parse_entry`. -/
def parseEntry (entry expectedDb : Bytes) : Option Bytes :=
  let path := plainPath entry
  if path.take 3 ≠ bytes "db/" then none
  else
    (cutAt slash (path.drop 3)).bind fun directory =>
      if directory.1 ≠ expectedDb then none
      else
        (cutAtLastText [slash] path).bind fun last =>
          let filename := last.2
          if filename.length < 7 then none
          else if filename.drop (filename.length - 7) ≠ bytes ".sql.gz" then none
          else
            let dot1 := filename.length - 7
            -- in front of the place 0 there is none: the whole name is searched
            let searched := if dot1 = 0 then filename else filename.take dot1
            (cutAtLastText [ascii '.'] searched).bind fun prev =>
              if prev.1 ≠ directory.1 then none else some prev.2

/-- The first entry that is a dump of the database, with its type. -/
def firstDump (entries : List Bytes) (expectedDb : Bytes) : Option (Bytes × Bytes) :=
  entries.findSome? fun entry => (parseEntry entry expectedDb).map fun type => (entry, type)

/-- The directory of a dump is named after its database. -/
theorem directory_of_parse {entry expectedDb type : Bytes} (h : parseEntry entry expectedDb = some type) :
    (cutAt slash ((plainPath entry).drop 3)).map Prod.fst = some expectedDb := by
  unfold parseEntry at h
  dsimp only at h
  generalize plainPath entry = path at h ⊢
  split at h
  · cases h
  · obtain ⟨directory, hCut, hRest⟩ := Option.bind_eq_some_iff.mp h
    rw [hCut, Option.map_some]
    split at hRest
    · cases hRest
    · next hEq => exact congrArg some (not_not.mp hEq)

/-- An entry is a dump of one database only. -/
theorem parseEntry_unique {entry first second type type' : Bytes} (h : parseEntry entry first = some type)
    (h' : parseEntry entry second = some type') : first = second :=
  Option.some.inj ((directory_of_parse h).symm.trans (directory_of_parse h'))

/-! ## Names -/

/-- A name without what looks like the user in front of it. -/
def ownerStripped (dbName : Bytes) : Option Bytes :=
  (cutAt underscore dbName).bind fun cut =>
    if cut.1.length < 20 && cut.1.all isAlnum && cut.1.length ≤ 15 then some cut.2 else none

def withoutDots (name : Bytes) : Bytes := name.map fun c => if c = ascii '.' then underscore else c

/-- `normalize_db_name`. -/
def normalizeDbName (raw : Bytes) : Bytes := (ownerStripped raw).getD raw

/-- The names that `find_db_in_archive` tries where the name itself has no dump. -/
def fallbacks (dbName : Bytes) : List Bytes :=
  let stripped :=
    match ownerStripped dbName with
    | none => []
    | some rest => if withoutDots rest ≠ rest then [rest, withoutDots rest] else [rest]
  let underscored := if withoutDots dbName ≠ dbName then [withoutDots dbName, withoutDots dbName] else []
  [dbName] ++ stripped ++ underscored

/-- All names that are tried, in their order. -/
def candidates (dbName : Bytes) : List Bytes := dbName :: fallbacks dbName

/-- `find_db_in_archive`: the path of a dump, and its type. -/
def findDbInArchive (entries : List Bytes) (dbName : Bytes) : Option (Bytes × Bytes) :=
  (firstDump entries dbName).or ((fallbacks dbName).findSome? (firstDump entries))

/-- The archive has a dump of the database. -/
def archived (entries : List Bytes) (name : Bytes) : Bool := entries.any fun entry => (parseEntry entry name).isSome

/-- The first of some names that the archive has a dump of. -/
def firstArchived (entries names : List Bytes) : Option Bytes := names.find? (archived entries)

section Lookup

variable {entries : List Bytes} {name : Bytes}

theorem firstDump_eq_none : firstDump entries name = none ↔ archived entries name = false := by
  rw [firstDump, List.findSome?_eq_none_iff, archived, List.any_eq_false]
  simp

theorem parse_of_firstDump {path type : Bytes} (h : firstDump entries name = some (path, type)) :
    path ∈ entries ∧ parseEntry path name = some type := by
  obtain ⟨entry, hMem, hEntry⟩ := List.exists_of_findSome?_eq_some h
  obtain ⟨type', hParse, hEq⟩ := Option.map_eq_some_iff.mp hEntry
  obtain ⟨rfl, rfl⟩ := Prod.mk.inj hEq
  exact ⟨hMem, hParse⟩

theorem exists_firstDump (h : archived entries name = true) : ∃ dump, firstDump entries name = some dump := by
  cases hDump : firstDump entries name with
  | some dump => exact ⟨dump, rfl⟩
  | none =>
      rw [firstDump_eq_none.mp hDump] at h
      cases h

/-- The search takes the first dump of the first name that has one. -/
theorem findDbInArchive_eq (entries : List Bytes) (dbName : Bytes) :
    findDbInArchive entries dbName = (firstArchived entries (candidates dbName)).bind (firstDump entries) := by
  have hNames : ∀ names : List Bytes, names.findSome? (firstDump entries) = (firstArchived entries names).bind (firstDump entries) := by
    intro names
    induction names with
    | nil => rfl
    | cons first rest ih =>
        rw [List.findSome?_cons, firstArchived, List.find?_cons]
        cases hArchived : archived entries first with
        | true =>
            obtain ⟨dump, hDump⟩ := exists_firstDump hArchived
            rw [hDump, Option.bind_some, hDump]
        | false =>
            rw [firstDump_eq_none.mpr hArchived]
            exact ih
  rw [← hNames, candidates, List.findSome?_cons, findDbInArchive]
  cases firstDump entries dbName <;> rfl

theorem archived_of_firstArchived {names : List Bytes} (h : firstArchived entries names = some name) :
    archived entries name = true := List.find?_some h

/-- What the search finds, by the name that it is a dump of. -/
theorem findDbInArchive_eq_some {dbName : Bytes} {dump : Bytes × Bytes} :
    findDbInArchive entries dbName = some dump ↔
      ∃ found, firstArchived entries (candidates dbName) = some found ∧ firstDump entries found = some dump := by
  rw [findDbInArchive_eq, Option.bind_eq_some_iff]

theorem findDbInArchive_eq_none {dbName : Bytes} :
    findDbInArchive entries dbName = none ↔ firstArchived entries (candidates dbName) = none := by
  rw [findDbInArchive_eq]
  cases hFound : firstArchived entries (candidates dbName) with
  | none => simp
  | some found =>
      obtain ⟨dump, hDump⟩ := exists_firstDump (archived_of_firstArchived hFound)
      simp [hDump]

/-- The name itself comes first. -/
theorem firstArchived_self {dbName : Bytes} (h : archived entries dbName = true) :
    firstArchived entries (candidates dbName) = some dbName := by
  rw [firstArchived, candidates, List.find?_cons, h]

/-- Two searches find the same dump only where they stop at the same name. -/
theorem found_eq_iff {found found' : Bytes} {dump dump' : Bytes × Bytes} (h : firstDump entries found = some dump)
    (h' : firstDump entries found' = some dump') : dump.1 = dump'.1 ↔ found = found' := by
  constructor
  · intro hPath
    obtain ⟨-, hParse⟩ := parse_of_firstDump h
    obtain ⟨-, hParse'⟩ := parse_of_firstDump h'
    rw [hPath] at hParse
    exact parseEntry_unique hParse hParse'
  · rintro rfl
    rw [Option.some.inj (h.symm.trans h')]

end Lookup

end ContainerCP.Migration
