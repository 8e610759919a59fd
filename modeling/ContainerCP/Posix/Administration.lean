import Mathlib.Data.List.Infix
import ContainerCP.Posix.Acl
import ContainerCP.Posix.LexicalPath

/-! A system as its administrator sees it: directories and mounts, and what the commands do
to them. A command that fails changes nothing. -/
namespace ContainerCP.Posix

/-- What stands at a path. A link comes with the directory that it leads to, if it leads
to one. -/
inductive Entry where
  | directory (directory : Directory)
  | link (gid : SystemId) (leads : Option Directory)
  | file (gid : SystemId) (mode : Nat)
  deriving DecidableEq

/-- A line of the mount table: where, and what of which filesystem. -/
structure Mount where
  target : Bytes
  root : Bytes
  options : Bytes
  fstype : Bytes
  device : Bytes
  deriving DecidableEq

/-- What does not change: how a path is spelled without links, and the filesystem that a
directory is on, as the mount table shows it. -/
structure Kernel where
  realpath : Bytes → Bytes
  backing : Bytes → Mount

structure System where
  entries : Rows (Prod.fst : Path × Entry → Path)
  mounts : List Mount
  deriving DecidableEq

namespace System

variable (system : System)

/-! ## Looking -/

/-- What a path leads to, links followed. -/
def directoryAt (path : Bytes) : Option Directory :=
  match system.entries.find (pathNames path) with
  | some (_, .directory directory) => some directory
  | some (_, .link _ leads) => leads
  | _ => none

/-- `lstat`. A slash at the end makes it follow a link, and wants a directory. -/
def lstat (path : Bytes) : Option Entry :=
  if path.getLast? = some slash then (system.directoryAt path).map .directory
  else (system.entries.find (pathNames path)).map Prod.snd

/-- The first line of the mount table for a path. -/
def mountAt (path : Bytes) : Option Mount := system.mounts.find? fun mount => mount.target = path

def hasChildren (path : Bytes) : Bool :=
  system.entries.rows.any fun entry => entry.1 ≠ [] && entry.1.dropLast = pathNames path

/-! ## Commands -/

def makeDirectory (entries : Rows (Prod.fst : Path × Entry → Path)) (place : Path) :
    Rows (Prod.fst : Path × Entry → Path) :=
  if place = [] ∨ (entries.find place).isSome then entries else entries.put (place, .directory .fresh)

/-- The directories on the way to a path that are not there, and the path itself. -/
def makeDirectories (entries : Rows (Prod.fst : Path × Entry → Path)) (path : Path) :
    Rows (Prod.fst : Path × Entry → Path) :=
  path.inits.foldl makeDirectory entries

def blocked (path : Bytes) : Bool :=
  (pathNames path).inits.any fun place =>
    match system.entries.find place with
    | some (_, .file _ _) | some (_, .link _ none) => true
    | _ => false

end System

inductive Command where
  | mkdirP (path : Bytes)
  | mountBind (source target : Bytes)
  | umount (target : Bytes)
  | rmdir (path : Bytes)
  deriving DecidableEq

/-- Take the last element with a property out. -/
def eraseLast {α : Type} (p : α → Bool) (list : List α) : List α := (list.reverse.eraseP p).reverse

theorem eraseLast_append {α : Type} {p : α → Bool} {last : α} (h : p last = true) (list : List α) :
    eraseLast p (list ++ [last]) = list := by
  simp [eraseLast, h]

namespace System

/-- What a command does, if the system allows it. -/
def execute (kernel : Kernel) (system : System) : Command → Option System
  | .mkdirP path =>
      if system.blocked path then none
      else some { system with entries := makeDirectories system.entries (pathNames path) }
  | .mountBind source target =>
      if (system.directoryAt source).isSome && (system.directoryAt target).isSome then
        some { system with mounts := system.mounts ++ [{ kernel.backing source with target := kernel.realpath target }] }
      else none
  | .umount target =>
      if system.mounts.any fun mount => mount.target = kernel.realpath target then
        some { system with mounts := eraseLast (fun mount => mount.target = kernel.realpath target) system.mounts }
      else none
  | .rmdir path =>
      match system.entries.find (pathNames path) with
      | some (place, .directory _) =>
          if system.hasChildren path || (system.mounts.any fun mount => mount.target = kernel.realpath path) then none
          else some { system with entries := system.entries.erase place }
      | _ => none

end System

end ContainerCP.Posix
