import Mathlib.Data.List.Infix
import ContainerCP.Data.Table
import ContainerCP.Text.Bytes

/-! A tree of directories, files and symbolic links, and what the calls of the
system do to it. A path is the list of its names from the root; a link has a
relative target. Every call either does the whole of its work or fails and leaves
the tree as it is. -/
namespace ContainerCP.Posix

abbrev Name := Bytes

abbrev Path := List Name

structure File where
  content : Bytes
  mode : Nat
  deriving DecidableEq

inductive Node where
  | file (file : File)
  | directory
  | link (target : Path)
  deriving DecidableEq

/-- What stands at each place. The root is a directory without an entry. -/
abbrev Tree := Table Path Node

inductive Errno where
  | exists
  | other
  deriving DecidableEq

namespace Tree

variable (tree : Tree)

/-! ## Paths -/

/-- How far a path leads without following a link. -/
inductive Walk where
  | arrived (place : Path)
  | met (directory target rest : Path)
  | missing
  deriving DecidableEq

def walk : Path → Path → Walk
  | directory, [] => .arrived directory
  | directory, name :: rest =>
      match tree.lookup (directory ++ [name]) with
      | none => .missing
      | some .directory => walk (directory ++ [name]) rest
      | some (.file _) => if rest = [] then .arrived (directory ++ [name]) else .missing
      | some (.link target) => .met directory target rest

def follow : Nat → Path → Path → Option Path
  | links, directory, path =>
      match tree.walk directory path with
      | .arrived place => some place
      | .missing => none
      | .met directory target rest =>
          match links with
          | 0 => none
          | links + 1 => follow links directory (target ++ rest)

/-- The place that a path leads to. The system follows at most forty links. -/
def resolve (path : Path) : Option Path := tree.follow 40 [] path

def isDirectory (place : Path) : Bool := place = [] || tree.lookup place = some .directory

/-- The place that a path names, whether something stands there or not: the links of
its directory are followed, a link in the last place is not. -/
def locate (path : Path) : Option Path :=
  match path.getLast? with
  | none => none
  | some name => ((tree.resolve path.dropLast).filter tree.isDirectory).map (· ++ [name])

/-! ## Calls -/

/-- `stat`: whether the path leads to something. -/
def present (path : Path) : Bool := (tree.resolve path).isSome

def read (path : Path) : Option Bytes :=
  match (tree.resolve path).bind tree.lookup with
  | some (.file file) => some file.content
  | _ => none

/-- `opendir` and `readdir`: the names, and which of them are directories. -/
def list (path : Path) : Option (List (Name × Bool)) :=
  ((tree.resolve path).filter tree.isDirectory).map fun place =>
    tree.entries.filterMap fun entry =>
      match entry.1.getLast? with
      | none => none
      | some name => if entry.1.dropLast = place then some (name, entry.2 = .directory) else none

/-- A call works at the place of its path. -/
def atPlace (path : Path) (effect : Path → Except Errno Tree) : Except Errno Tree :=
  match tree.locate path with
  | none => .error .other
  | some place => effect place

def mkdir (path : Path) : Except Errno Tree :=
  tree.atPlace path fun place =>
    if (tree.lookup place).isSome then .error .exists else .ok (tree.insert place .directory)

def symlink (target path : Path) : Except Errno Tree :=
  tree.atPlace path fun place =>
    if (tree.lookup place).isSome then .error .exists else .ok (tree.insert place (.link target))

def unlink (path : Path) : Except Errno Tree :=
  tree.atPlace path fun place =>
    match tree.lookup place with
    | none | some .directory => .error .other
    | some (.file _) | some (.link _) => .ok (tree.erase place)

def rmdir (path : Path) : Except Errno Tree :=
  tree.atPlace path fun place =>
    if tree.lookup place = some .directory ∧ tree.keys.all (fun key => key = [] || key.dropLast ≠ place) then
      .ok (tree.erase place)
    else .error .other

/-- `rename` of a file or a link, which replaces what stands at the new place. -/
def rename (source path : Path) : Except Errno Tree :=
  tree.atPlace source fun old =>
    tree.atPlace path fun new =>
      match tree.lookup old with
      | none | some .directory => .error .other
      | some node => if tree.lookup new = some .directory then .error .other else .ok ((tree.erase old).insert new node)

/-- `open` for writing, with `O_CREAT` and `O_TRUNC`. -/
def create (path : Path) (mode : Nat) : Except Errno Tree :=
  tree.atPlace path fun place =>
    match tree.lookup place with
    | none => .ok (tree.insert place (.file ⟨[], mode⟩))
    | some (.file file) => .ok (tree.insert place (.file ⟨[], file.mode⟩))
    | some .directory | some (.link _) => .error .other

/-- `write` at the end of the file that was opened under a path. -/
def append (path : Path) (data : Bytes) : Except Errno Tree :=
  tree.atPlace path fun place =>
    match tree.lookup place with
    | some (.file file) => .ok (tree.insert place (.file ⟨file.content ++ data, file.mode⟩))
    | none | some .directory | some (.link _) => .error .other

/-- `lstat`: what stands at the path itself. -/
def lstat (path : Path) : Option Node := if path = [] then some .directory else (tree.locate path).bind tree.lookup

/-- `open` with `O_CREAT` and `O_EXCL`. -/
def createNew (path : Path) (mode : Nat) : Except Errno Tree :=
  tree.atPlace path fun place =>
    if (tree.lookup place).isSome then .error .exists else .ok (tree.insert place (.file ⟨[], mode⟩))

/-- `fchmod` of the file that was opened under a path. -/
def chmod (path : Path) (mode : Nat) : Except Errno Tree :=
  tree.atPlace path fun place =>
    match tree.lookup place with
    | some (.file file) => .ok (tree.insert place (.file ⟨file.content, mode⟩))
    | none | some .directory | some (.link _) => .error .other

/-! ## Paths without links -/

/-- No link stands on the way to a path, nor at its end. -/
def Plain (path : Path) : Prop := ∀ q, q <+: path → q ≠ [] → ∀ target, tree.lookup q ≠ some (.link target)

/-- The way to a path is directories. -/
def Directories (path : Path) : Prop := ∀ q, q <+: path → q ≠ [] → tree.lookup q = some .directory

instance (path : Path) : Decidable (tree.Directories path) :=
  decidable_of_iff (∀ q ∈ path.inits, q ≠ [] → tree.lookup q = some .directory)
    (by simp only [List.mem_inits, Directories])

/-- Two trees that differ at most at some places. -/
def AgreesOff (places : Path → Prop) (tree tree' : Tree) : Prop := ∀ p, ¬places p → tree'.lookup p = tree.lookup p

variable {tree} {tree' : Tree} {directory path : Path} {name : Name}

theorem walk_of_plain (hPlain : ∀ q, q <+: path → q ≠ [] → ∀ target, tree.lookup (directory ++ q) ≠ some (.link target)) :
    tree.walk directory path = .arrived (directory ++ path) ∨ tree.walk directory path = .missing := by
  induction path generalizing directory with
  | nil => exact .inl (by rw [walk, List.append_nil])
  | cons name rest ih =>
      rw [walk]
      cases hNode : tree.lookup (directory ++ [name]) with
      | none => exact .inr rfl
      | some node =>
          cases node with
          | file file =>
              by_cases hRest : rest = []
              · exact .inl (by simp [hRest])
              · exact .inr (by simp [hRest])
          | link target =>
              exact absurd hNode (hPlain [name] (List.prefix_append [name] rest) (List.cons_ne_nil _ _) target)
          | directory =>
              have hAppend : directory ++ name :: rest = directory ++ [name] ++ rest := by simp
              rw [hAppend]
              apply ih
              intro q hq _ target
              have hLonger := hPlain (name :: q) (List.prefix_cons_inj name |>.mpr hq) (List.cons_ne_nil _ _) target
              rwa [List.append_assoc]

theorem walk_append (hDirectories : ∀ q, q <+: path → q ≠ [] → tree.lookup (directory ++ q) = some .directory)
    (rest : Path) : tree.walk directory (path ++ rest) = tree.walk (directory ++ path) rest := by
  induction path generalizing directory with
  | nil => rw [List.nil_append, List.append_nil]
  | cons name path ih =>
      have hNode := hDirectories [name] (List.prefix_append [name] path) (List.cons_ne_nil _ _)
      have hAppend : directory ++ name :: path = directory ++ [name] ++ path := by simp
      rw [List.cons_append, walk, hNode, hAppend]
      apply ih
      intro q hq _
      rw [List.append_assoc]
      exact hDirectories (name :: q) (List.prefix_cons_inj name |>.mpr hq) (List.cons_ne_nil _ _)

theorem resolve_of_plain (h : tree.Plain path) : tree.resolve path = some path ∨ tree.resolve path = none := by
  have hWalks : tree.walk [] path = .arrived ([] ++ path) ∨ tree.walk [] path = .missing :=
    walk_of_plain h
  rw [resolve, follow]
  obtain hWalk | hWalk := hWalks
  · exact .inl (by rw [hWalk]; rfl)
  · exact .inr (by rw [hWalk])

theorem locate_of_plain (h : tree.Plain directory) :
    tree.locate (directory ++ [name]) = some (directory ++ [name]) ∨ tree.locate (directory ++ [name]) = none := by
  rw [locate, List.getLast?_concat, List.dropLast_concat]
  obtain hResolve | hResolve := resolve_of_plain h
  · rw [hResolve]
    cases hDirectory : tree.isDirectory directory with
    | true => exact .inl (by simp [hDirectory])
    | false => exact .inr (by simp [hDirectory])
  · exact .inr (by rw [hResolve]; rfl)

theorem Directories.plain (h : tree.Directories path) : tree.Plain path := by
  intro q hq hNil target
  rw [h q hq hNil]
  exact nofun

theorem plain_concat : tree.Plain (directory ++ [name]) ↔
    tree.Plain directory ∧ ∀ target, tree.lookup (directory ++ [name]) ≠ some (.link target) := by
  constructor
  · intro h
    refine ⟨fun q hq => h q (hq.trans (List.prefix_append _ _)), ?_⟩
    exact h _ List.prefix_rfl (by simp)
  · rintro ⟨hPlain, hLast⟩ q hq hNil
    obtain hEq | hShorter := List.prefix_concat_iff.mp hq
    · rw [hEq]
      exact hLast
    · exact hPlain q hShorter hNil

theorem resolve_of_directories (h : tree.Directories path) : tree.resolve path = some path := by
  have hBelow : ∀ q, q <+: path → q ≠ [] → tree.lookup ([] ++ q) = some .directory := h
  have hWalk := walk_append hBelow []
  rw [List.append_nil, List.nil_append, walk] at hWalk
  rw [resolve, follow, hWalk]

/-- A name that stands in a listing as a directory is one. -/
theorem lookup_of_mem_list {entries : List (Name × Bool)} (hDirectories : tree.Directories directory)
    (hList : tree.list directory = some entries) (hMem : (name, true) ∈ entries) :
    tree.lookup (directory ++ [name]) = some .directory := by
  rw [list, resolve_of_directories hDirectories] at hList
  obtain ⟨place, hPlace, rfl⟩ := Option.map_eq_some_iff.mp hList
  obtain ⟨⟨key, node⟩, hEntry, hName⟩ := List.mem_filterMap.mp hMem
  dsimp only at hName
  split at hName
  · cases hName
  · next last hLast =>
    split at hName
    · next hParent =>
      have hSame : directory = place := Option.some.inj (Option.filter_eq_some_iff.mp hPlace).1
      have hKey : key = directory ++ [name] := by
        rw [← List.dropLast_append_getLast? last hLast, hParent, hSame]
        simp_all
      have hNode : node = .directory := by simp_all
      rw [← hKey, ← hNode]
      exact AList.mem_lookup_iff.mpr hEntry
    · cases hName

theorem locate_of_directories (h : tree.Directories directory) :
    tree.locate (directory ++ [name]) = some (directory ++ [name]) := by
  have hIs : tree.isDirectory directory = true := by
    by_cases hNil : directory = []
    · simp [isDirectory, hNil]
    · simp [isDirectory, h directory List.prefix_rfl hNil]
  rw [locate, List.getLast?_concat, List.dropLast_concat, resolve_of_directories h]
  simp [hIs]

/-- Nothing stands below a name that is missing. -/
theorem resolve_of_missing (h : tree.Directories directory) (hMissing : tree.lookup (directory ++ [name]) = none)
    (rest : Path) : tree.resolve (directory ++ name :: rest) = none := by
  have hBelow : ∀ q, q <+: directory → q ≠ [] → tree.lookup ([] ++ q) = some .directory := h
  rw [resolve, follow, walk_append hBelow, List.nil_append, walk, hMissing]

theorem resolve_file {file : File} (h : tree.Directories directory)
    (hFile : tree.lookup (directory ++ [name]) = some (.file file)) :
    tree.resolve (directory ++ [name]) = some (directory ++ [name]) := by
  have hBelow : ∀ q, q <+: directory → q ≠ [] → tree.lookup ([] ++ q) = some .directory := h
  rw [resolve, follow, walk_append hBelow, List.nil_append, walk, hFile]
  rfl

/-! What a call has done that did not fail, on a path whose directory is plain. -/

section Effects

variable {mode : Nat} {data : Bytes} {target source : Path}

theorem atPlace_ok {effect : Path → Except Errno Tree} (hPlain : tree.Plain directory)
    (h : tree.atPlace (directory ++ [name]) effect = .ok tree') : effect (directory ++ [name]) = .ok tree' := by
  rw [atPlace] at h
  obtain hLocate | hLocate := locate_of_plain hPlain
  · rwa [hLocate] at h
  · rw [hLocate] at h
    cases h

theorem mkdir_ok (hPlain : tree.Plain directory) (h : tree.mkdir (directory ++ [name]) = .ok tree') :
    tree.lookup (directory ++ [name]) = none ∧ tree' = tree.insert (directory ++ [name]) .directory := by
  have hEffect := atPlace_ok hPlain h
  split at hEffect
  · cases hEffect
  · next hNone => exact ⟨by simpa using hNone, by injection hEffect with hEq; exact hEq.symm⟩

theorem symlink_ok (hPlain : tree.Plain directory) (h : tree.symlink target (directory ++ [name]) = .ok tree') :
    tree.lookup (directory ++ [name]) = none ∧ tree' = tree.insert (directory ++ [name]) (.link target) := by
  have hEffect := atPlace_ok hPlain h
  split at hEffect
  · cases hEffect
  · next hNone => exact ⟨by simpa using hNone, by injection hEffect with hEq; exact hEq.symm⟩

theorem unlink_ok (hPlain : tree.Plain directory) (h : tree.unlink (directory ++ [name]) = .ok tree') :
    tree.lookup (directory ++ [name]) ≠ some .directory ∧ tree' = tree.erase (directory ++ [name]) := by
  have hEffect := atPlace_ok hPlain h
  cases hNode : tree.lookup (directory ++ [name]) with
  | none => simp [hNode] at hEffect
  | some node =>
      cases node with
      | directory => simp [hNode] at hEffect
      | file file => exact ⟨nofun, by simpa [hNode] using hEffect.symm⟩
      | link target => exact ⟨nofun, by simpa [hNode] using hEffect.symm⟩

theorem rmdir_ok (hPlain : tree.Plain directory) (h : tree.rmdir (directory ++ [name]) = .ok tree') :
    tree' = tree.erase (directory ++ [name]) := by
  have hEffect := atPlace_ok hPlain h
  split at hEffect
  · injection hEffect with hEq
    exact hEq.symm
  · cases hEffect

theorem create_ok (hPlain : tree.Plain directory) (h : tree.create (directory ++ [name]) mode = .ok tree') :
    ∃ mode', tree' = tree.insert (directory ++ [name]) (.file ⟨[], mode'⟩) := by
  have hEffect := atPlace_ok hPlain h
  cases hNode : tree.lookup (directory ++ [name]) with
  | none => exact ⟨mode, by simpa [hNode] using hEffect.symm⟩
  | some node =>
      cases node with
      | directory => simp [hNode] at hEffect
      | file file => exact ⟨file.mode, by simpa [hNode] using hEffect.symm⟩
      | link target => simp [hNode] at hEffect

theorem append_ok (hPlain : tree.Plain directory) (h : tree.append (directory ++ [name]) data = .ok tree') :
    ∃ file, tree.lookup (directory ++ [name]) = some (.file file) ∧
      tree' = tree.insert (directory ++ [name]) (.file ⟨file.content ++ data, file.mode⟩) := by
  have hEffect := atPlace_ok hPlain h
  cases hNode : tree.lookup (directory ++ [name]) with
  | none => simp [hNode] at hEffect
  | some node =>
      cases node with
      | directory => simp [hNode] at hEffect
      | file file => exact ⟨file, rfl, by simpa [hNode] using hEffect.symm⟩
      | link target => simp [hNode] at hEffect

theorem rename_ok {directory' : Path} {name' : Name} (hPlain : tree.Plain directory) (hPlain' : tree.Plain directory')
    (h : tree.rename (directory' ++ [name']) (directory ++ [name]) = .ok tree') :
    ∃ node, tree.lookup (directory' ++ [name']) = some node ∧ node ≠ .directory ∧
      tree.lookup (directory ++ [name]) ≠ some .directory ∧
        tree' = (tree.erase (directory' ++ [name'])).insert (directory ++ [name]) node := by
  have hEffect := atPlace_ok hPlain (atPlace_ok hPlain' h)
  split at hEffect
  · cases hEffect
  · cases hEffect
  · next node hDirectory hNode =>
    split at hEffect
    · cases hEffect
    · next hReplaced =>
      injection hEffect with hEq
      exact ⟨node, hNode, hDirectory, hReplaced, hEq.symm⟩

end Effects

/-! ## What stays -/

theorem agreesOff_insert (place : Path) (node : Node) : AgreesOff (· = place) tree (tree.insert place node) :=
  fun _ hOther => AList.lookup_insert_ne hOther

theorem agreesOff_erase (place : Path) : AgreesOff (· = place) tree (tree.erase place) :=
  fun _ hOther => AList.lookup_erase_ne hOther

theorem AgreesOff.mono {places places' : Path → Prop} (h : AgreesOff places tree tree')
    (hMore : ∀ p, places p → places' p) : AgreesOff places' tree tree' :=
  fun p hp => h p fun hPlaces => hp (hMore p hPlaces)

theorem Plain.of_agrees {places : Path → Prop} (h : tree.Plain path) (hAgrees : AgreesOff places tree tree')
    (hClear : ∀ q, q <+: path → q ≠ [] → ¬places q) : tree'.Plain path := by
  intro q hq hNil
  rw [hAgrees q (hClear q hq hNil)]
  exact h q hq hNil

theorem Directories.of_agrees {places : Path → Prop} (h : tree.Directories path)
    (hAgrees : AgreesOff places tree tree') (hClear : ∀ q, q <+: path → q ≠ [] → ¬places q) :
    tree'.Directories path := by
  intro q hq hNil
  rw [hAgrees q (hClear q hq hNil)]
  exact h q hq hNil

theorem Directories.concat (h : tree.Directories directory)
    (hNode : tree.lookup (directory ++ [name]) = some .directory) : tree.Directories (directory ++ [name]) := by
  intro q hq hNil
  obtain rfl | hShorter := List.prefix_concat_iff.mp hq
  · exact hNode
  · exact h q hShorter hNil

/-- What is a directory already cannot be made. -/
theorem mkdir_of_directories (h : tree.Directories path) : tree.mkdir path ≠ .ok tree' := by
  intro hMade
  obtain rfl | ⟨directory, name, rfl⟩ := List.eq_nil_or_concat' path
  · cases hMade
  · have hAbove : tree.Directories directory := fun q hq => h q (hq.trans (List.prefix_append _ _))
    have hNone := (mkdir_ok hAbove.plain hMade).1
    rw [h _ List.prefix_rfl (by simp)] at hNone
    cases hNone

/-- The place behind a link to a directory further down. -/
theorem resolve_link {target rest : Path} (hDirectories : tree.Directories directory)
    (hLink : tree.lookup (directory ++ [name]) = some (.link target)) :
    tree.resolve (directory ++ [name] ++ rest) = tree.follow 39 directory (target ++ rest) := by
  have hBelow : ∀ q, q <+: directory → q ≠ [] → tree.lookup ([] ++ q) = some .directory := hDirectories
  rw [resolve, follow, List.append_assoc, walk_append hBelow, List.nil_append, List.singleton_append, walk, hLink]

theorem follow_of_arrived {links : Nat} {place : Path} (h : tree.walk directory path = .arrived place) :
    tree.follow links directory path = some place := by
  cases links with
  | zero => rw [follow, h]
  | succ links => rw [follow, h]

theorem follow_of_directories {links : Nat}
    (h : ∀ q, q <+: path → q ≠ [] → tree.lookup (directory ++ q) = some .directory) :
    tree.follow links directory path = some (directory ++ path) := by
  have hWalk := walk_append h []
  rw [List.append_nil, walk] at hWalk
  exact follow_of_arrived hWalk

theorem follow_file {links : Nat} {file : File}
    (h : ∀ q, q <+: path → q ≠ [] → tree.lookup (directory ++ q) = some .directory)
    (hFile : tree.lookup (directory ++ path ++ [name]) = some (.file file)) :
    tree.follow links directory (path ++ [name]) = some (directory ++ path ++ [name]) := by
  have hWalk := walk_append h [name]
  rw [walk, hFile] at hWalk
  exact follow_of_arrived hWalk

/-! ## What is read through a path -/

theorem walk_append_arrived {place : Path} (h : tree.walk directory path = .arrived place)
    (hDirectory : tree.isDirectory place = true) (rest : Path) :
    tree.walk directory (path ++ rest) = tree.walk place rest := by
  induction path generalizing directory with
  | nil =>
      rw [walk] at h
      rw [List.nil_append, Walk.arrived.inj h]
  | cons name path ih =>
      rw [walk] at h
      rw [List.cons_append, walk]
      cases hNode : tree.lookup (directory ++ [name]) with
      | none => simp [hNode] at h
      | some node =>
          cases node with
          | link target => simp [hNode] at h
          | directory =>
              simp only [hNode] at h ⊢
              exact ih h
          | file file =>
              -- the walk has come to an end at a file, which is no directory
              simp only [hNode] at h
              split at h
              · rw [← Walk.arrived.inj h] at hDirectory
                simp [isDirectory, hNode] at hDirectory
              · cases h

theorem walk_append_met {from' target remaining : Path} (h : tree.walk directory path = .met from' target remaining)
    (rest : Path) : tree.walk directory (path ++ rest) = .met from' target (remaining ++ rest) := by
  induction path generalizing directory with
  | nil => cases h
  | cons name path ih =>
      rw [walk] at h
      rw [List.cons_append, walk]
      cases hNode : tree.lookup (directory ++ [name]) with
      | none => simp [hNode] at h
      | some node =>
          cases node with
          | file file =>
              simp only [hNode] at h
              split at h <;> cases h
          | directory =>
              simp only [hNode] at h ⊢
              exact ih h
          | link target' =>
              simp only [hNode, Walk.met.injEq] at h ⊢
              obtain ⟨rfl, rfl, rfl⟩ := h
              exact ⟨rfl, rfl, rfl⟩

theorem follow_append_file {links : Nat} {place : Path} {file : File}
    (h : tree.follow links directory path = some place) (hDirectory : tree.isDirectory place = true)
    (hFile : tree.lookup (place ++ [name]) = some (.file file)) :
    tree.follow links directory (path ++ [name]) = some (place ++ [name]) := by
  induction links generalizing directory path with
  | zero =>
      rw [follow] at h
      cases hWalk : tree.walk directory path with
      | missing => simp [hWalk] at h
      | met => simp [hWalk] at h
      | arrived found =>
          obtain rfl : found = place := by simpa [hWalk] using h
          rw [follow, walk_append_arrived hWalk hDirectory, walk, hFile]
          rfl
  | succ links ih =>
      rw [follow] at h
      cases hWalk : tree.walk directory path with
      | missing => simp [hWalk] at h
      | met from' target remaining =>
          simp only [hWalk] at h
          rw [follow, walk_append_met hWalk, ← ih h, List.append_assoc]
      | arrived found =>
          obtain rfl : found = place := by simpa [hWalk] using h
          rw [follow, walk_append_arrived hWalk hDirectory, walk, hFile]
          rfl

/-- A file that stands at a path is what is read through it. -/
theorem read_of_lstat {file : File} (h : tree.lstat path = some (.file file)) : tree.read path = some file.content := by
  rw [lstat] at h
  split at h
  · cases h
  · next hNil =>
    obtain ⟨place, hPlace, hFile⟩ := Option.bind_eq_some_iff.mp h
    obtain rfl | ⟨directory, name, rfl⟩ := List.eq_nil_or_concat' path
    · exact absurd rfl hNil
    · rw [locate, List.getLast?_concat, List.dropLast_concat] at hPlace
      obtain ⟨found, hFound, rfl⟩ := Option.map_eq_some_iff.mp hPlace
      obtain ⟨hResolve, hDirectory⟩ := Option.filter_eq_some_iff.mp hFound
      have hWhole : tree.resolve (directory ++ [name]) = some (found ++ [name]) :=
        follow_append_file hResolve hDirectory hFile
      rw [read, hWhole, Option.bind_some, hFile]

/-! ## Places where nothing leads further -/

/-- Nothing, or a file. -/
def Leaf (node : Option Node) : Prop := node = none ∨ ∃ file, node = some (.file file)

theorem leaf_none : Leaf none := .inl rfl

theorem leaf_file (file : File) : Leaf (some (.file file)) := .inr ⟨file, rfl⟩

section Leaves

variable {place : Path}

/-- A walk that ends at a leaf, or does not get there. -/
def Stuck (place : Path) (walk : Walk) : Prop := walk = .missing ∨ walk = .arrived place

theorem walk_stuck (hLeaf : Leaf (tree.lookup place)) (hPlace : directory ++ [name] = place) (rest : Path) :
    Stuck place (tree.walk directory (name :: rest)) := by
  rw [walk, hPlace]
  obtain hNone | ⟨file, hFile⟩ := hLeaf
  · rw [hNone]
    exact .inl rfl
  · rw [hFile]
    by_cases hRest : rest = []
    · exact .inr (by simp [hRest])
    · exact .inl (by simp [hRest])

/-- Where two trees differ in a leaf only, a walk goes the same way in both, or does not
get past the leaf in either. -/
theorem walk_congr (hAgrees : AgreesOff (· = place) tree tree') (hLeaf : Leaf (tree.lookup place))
    (hLeaf' : Leaf (tree'.lookup place)) (directory path : Path) :
    tree'.walk directory path = tree.walk directory path ∨
      Stuck place (tree.walk directory path) ∧ Stuck place (tree'.walk directory path) := by
  induction path generalizing directory with
  | nil => exact .inl rfl
  | cons name rest ih =>
      by_cases hPlace : directory ++ [name] = place
      · exact .inr ⟨walk_stuck hLeaf hPlace rest, walk_stuck hLeaf' hPlace rest⟩
      · rw [walk, walk, hAgrees _ hPlace]
        cases tree.lookup (directory ++ [name]) with
        | none => exact .inl rfl
        | some node =>
            cases node with
            | file file => exact .inl rfl
            | link target => exact .inl rfl
            | directory => exact ih (directory ++ [name])

/-- The place of a path, or none, where the path does not get past a leaf. -/
theorem follow_stuck {links : Nat} (h : Stuck place (tree.walk directory path)) :
    tree.follow links directory path = none ∨ tree.follow links directory path = some place := by
  rw [follow]
  obtain hWalk | hWalk := h
  · rw [hWalk]
    exact .inl rfl
  · rw [hWalk]
    exact .inr rfl

theorem follow_congr (hAgrees : AgreesOff (· = place) tree tree') (hLeaf : Leaf (tree.lookup place))
    (hLeaf' : Leaf (tree'.lookup place)) (links : Nat) (directory path : Path) :
    tree'.follow links directory path = tree.follow links directory path ∨
      (tree.follow links directory path = none ∨ tree.follow links directory path = some place) ∧
        (tree'.follow links directory path = none ∨ tree'.follow links directory path = some place) := by
  induction links generalizing directory path with
  | zero =>
      obtain hWalk | ⟨hStuck, hStuck'⟩ := walk_congr hAgrees hLeaf hLeaf' directory path
      · rw [follow, follow, hWalk]
        exact .inl rfl
      · exact .inr ⟨follow_stuck hStuck, follow_stuck hStuck'⟩
  | succ links ih =>
      obtain hWalk | ⟨hStuck, hStuck'⟩ := walk_congr hAgrees hLeaf hLeaf' directory path
      · rw [follow, follow, hWalk]
        cases tree.walk directory path with
        | arrived => exact .inl rfl
        | missing => exact .inl rfl
        | met directory target rest => exact ih directory (target ++ rest)
      · exact .inr ⟨follow_stuck hStuck, follow_stuck hStuck'⟩

theorem isDirectory_leaf (hLeaf : Leaf (tree.lookup place)) (hPlace : place ≠ []) : tree.isDirectory place = false := by
  obtain hNone | ⟨file, hFile⟩ := hLeaf
  · simp [isDirectory, hPlace, hNone]
  · simp [isDirectory, hPlace, hFile]

/-- Every path leads to the same directory in both trees, if it leads to one. -/
theorem resolve_directory_congr (hAgrees : AgreesOff (· = place) tree tree') (hPlace : place ≠ [])
    (hLeaf : Leaf (tree.lookup place)) (hLeaf' : Leaf (tree'.lookup place)) (path : Path) :
    (tree'.resolve path).filter tree'.isDirectory = (tree.resolve path).filter tree.isDirectory := by
  have hNever : ∀ {found : Option Path} {t : Tree}, Leaf (t.lookup place) → found = none ∨ found = some place →
      found.filter t.isDirectory = none := by
    rintro found t hLeaf (rfl | rfl)
    · rfl
    · simp [isDirectory_leaf hLeaf hPlace]
  obtain hSame | ⟨hFollow, hFollow'⟩ := follow_congr hAgrees hLeaf hLeaf' 40 [] path
  · rw [resolve, hSame, resolve]
    cases tree.follow 40 [] path with
    | none => rfl
    | some found =>
        by_cases hFound : found = place
        · rw [hNever hLeaf' (.inr (congrArg some hFound)), hNever hLeaf (.inr (congrArg some hFound))]
        · simp [Option.filter, isDirectory, hAgrees found hFound]
  · rw [resolve, resolve, hNever hLeaf' hFollow', hNever hLeaf hFollow]

/-- Every path names the same place in both trees. -/
theorem locate_congr (hAgrees : AgreesOff (· = place) tree tree') (hPlace : place ≠ [])
    (hLeaf : Leaf (tree.lookup place)) (hLeaf' : Leaf (tree'.lookup place)) (path : Path) :
    tree'.locate path = tree.locate path := by
  rw [locate, locate, resolve_directory_congr hAgrees hPlace hLeaf hLeaf']

theorem locate_ne_nil (h : tree.locate path = some place) : place ≠ [] := by
  rw [locate] at h
  split at h
  · cases h
  · obtain ⟨found, -, rfl⟩ := Option.map_eq_some_iff.mp h
    simp

/-- Two names in one directory. -/
theorem locate_beside {other : Name} (h : tree.locate (directory ++ [name]) = some place) :
    ∃ found, place = found ++ [name] ∧ tree.locate (directory ++ [other]) = some (found ++ [other]) := by
  rw [locate, List.getLast?_concat, List.dropLast_concat] at h
  obtain ⟨found, hFound, rfl⟩ := Option.map_eq_some_iff.mp h
  refine ⟨found, rfl, ?_⟩
  rw [locate, List.getLast?_concat, List.dropLast_concat, hFound]
  rfl

end Leaves

end Tree

end ContainerCP.Posix
