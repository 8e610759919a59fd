import Mathlib.Data.List.Basic
import ContainerCP.Data.Rows

/-! Directories with access control lists. The mode of a directory is a view of its list. -/
namespace ContainerCP.Posix

/-- Read, write and execute, from the high bit down. -/
abbrev Rwx := BitVec 3

/-- The number of a user or a group. -/
abbrev SystemId := BitVec 32

/-- An access control list. Where there are named entries, there is a mask. -/
structure Acl where
  owner : Rwx
  users : List (SystemId × Rwx)
  group : Rwx
  groups : Rows (Prod.fst : SystemId × Rwx → SystemId)
  mask : Option Rwx
  other : Rwx
  masked : users ≠ [] ∨ groups.rows ≠ [] → mask.isSome
  deriving DecidableEq

namespace Acl

/-- The list without named entries. -/
def base (owner group other : Rwx) : Acl :=
  ⟨owner, [], group, ∅, none, other, by rintro (h | h) <;> exact absurd rfl h⟩

/-- The permissions of the group class in the mode. -/
def classBits (acl : Acl) : Rwx := acl.mask.getD acl.group

/-- Some group entry has a permission that the mask takes away; `getfacl` adds a remark
to such an entry. -/
def clipsGroup (acl : Acl) : Bool :=
  match acl.mask with
  | none => false
  | some mask => (acl.group :: acl.groups.rows.map Prod.snd).any fun permissions => permissions &&& ~~~mask ≠ 0

end Acl

/-! ## Directories -/

/-- A directory with the set-user-id, set-group-id and sticky bits. -/
structure Directory where
  owner : SystemId
  gid : SystemId
  special : BitVec 3
  access : Acl
  default : Option Acl
  deriving DecidableEq

namespace Directory

def mode (directory : Directory) : Nat :=
  directory.special.toNat * 512 + directory.access.owner.toNat * 64 + directory.access.classBits.toNat * 8 +
    directory.access.other.toNat

/-- A directory as `mkdir` makes it for root. -/
def fresh : Directory := ⟨0, 0, 0, Acl.base 0b111 0b101 0b101, none⟩

end Directory

end ContainerCP.Posix
