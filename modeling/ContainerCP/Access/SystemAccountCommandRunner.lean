import ContainerCP.Posix.Arguments
import ContainerCP.Text.Decimal
import ContainerCP.Text.Streams

/-! `SystemAccountCommandRunner`: the commands that it builds for root from the strings of its
callers. -/
namespace ContainerCP.CommandRunner

open Posix

def canonicalPaths : List (Bytes × Bytes) :=
  [(bytes "groupadd", bytes "/usr/sbin/groupadd"), (bytes "useradd", bytes "/usr/sbin/useradd"),
    (bytes "usermod", bytes "/usr/sbin/usermod"), (bytes "userdel", bytes "/usr/sbin/userdel"),
    (bytes "groupdel", bytes "/usr/sbin/groupdel"), (bytes "passwd", bytes "/usr/bin/passwd"),
    (bytes "gpasswd", bytes "/usr/bin/gpasswd"), (bytes "chgrp", bytes "/usr/bin/chgrp"),
    (bytes "chmod", bytes "/usr/bin/chmod"), (bytes "setfacl", bytes "/usr/bin/setfacl"),
    (bytes "mkdir", bytes "/usr/bin/mkdir"), (bytes "mount", bytes "/usr/bin/mount"),
    (bytes "umount", bytes "/usr/bin/umount"), (bytes "mountpoint", bytes "/usr/bin/mountpoint"),
    (bytes "rmdir", bytes "/usr/bin/rmdir"), (bytes "chown", bytes "/usr/bin/chown"), (bytes "ls", bytes "/usr/bin/ls")]

/-! ## Validators -/

def containsControlChars (s : Bytes) : Bool := s.any fun c => (c < 0x20 && c != ascii '\t') || c == 0x7f

def isValidUsername (s : Bytes) : Bool :=
  s ≠ [] && s.length ≤ 32 && !containsControlChars s && s.all fun c => isAlnum c || c == ascii '-' || c == ascii '_'

def isValidGroupname (s : Bytes) : Bool := isValidUsername s

def isValidOctalMode (s : Bytes) : Bool :=
  3 ≤ s.length && s.length ≤ 4 && !containsControlChars s && s.all fun c => ascii '0' ≤ c && c ≤ ascii '7'

def isValidPermChars (s : Bytes) : Bool := s ≠ [] && s.length ≤ 3 && s.all fun c => (bytes "rwx-").contains c

/-- A group with its permissions, or a group alone to be removed. -/
def isValidGroupEntry (rest : Bytes) : Bool :=
  match cutAt (ascii ':') rest with
  | none => isValidGroupname rest
  | some (group, perms) => isValidGroupname group && isValidPermChars perms

def isValidAclSpec (s : Bytes) : Bool :=
  if s = [] || containsControlChars s || 256 < s.length then false
  else if (bytes "g:").isPrefixOf s then isValidGroupEntry (s.drop 2)
  else if (bytes "d:g:").isPrefixOf s then isValidGroupEntry (s.drop 4)
  else false

def isValidShell (s : Bytes) : Bool :=
  s ≠ [] && !containsControlChars s && s.head? = some (ascii '/') && (cutAtText (bytes "..") s).isNone && s.length ≤ 256

def isValidDate (s : Bytes) : Bool :=
  !containsControlChars s &&
    (s = [] || s = bytes "never" || s = bytes "-1" ||
      s.zipIdx.all fun entry => if entry.2 = 4 ∨ entry.2 = 7 then entry.1 = ascii '-' else isDigit entry.1)

structure Range where
  min : Int := 0
  max : Int := 0
  deriving DecidableEq

/-- The limits of a runner. `managedPathError` is what `validate_managed_path` finds wrong with
a path below the managed root; that depends on the file system. -/
structure Runner where
  managedRoot : Bytes := []
  uidRange : Range := {}
  gidRange : Range := {}
  managedPathError : Bytes → Option Bytes := fun _ => none

/-- A check that refuses with a message. -/
def require (accepted : Bool) (message : String) : Except Bytes Unit := if accepted then .ok () else .error (bytes message)

namespace Runner

variable (runner : Runner)

def validatePathManaged (path : Bytes) : Except Bytes Unit := do
  require (path ≠ []) "empty_path"
  require (path.head? = some (ascii '/')) "relative_path"
  require (!containsControlChars path) "control_chars"
  require (!(path.splitOn (ascii '/')).contains (bytes "..")) "dotdot_component"
  if runner.managedRoot ≠ [] then
    match runner.managedPathError path with
    | some error => .error (bytes "managed_path:" ++ error)
    | none => .ok ()
  else .ok ()

def validateUid (uid : Int) : Except Bytes Unit := do
  require (0 < uid) "invalid_uid"
  require (!(0 < runner.uidRange.min && uid < runner.uidRange.min)) "uid_below_range"
  require (!(0 < runner.uidRange.max && runner.uidRange.max < uid)) "uid_above_range"

def validateGid (gid : Int) : Except Bytes Unit := do
  require (0 < gid) "invalid_gid"
  require (!(0 < runner.gidRange.min && gid < runner.gidRange.min)) "gid_below_range"
  require (!(0 < runner.gidRange.max && runner.gidRange.max < gid)) "gid_above_range"

end Runner

/-- A command: its tool, by the name in the list of the canonical paths, and the words behind
the path of the tool. -/
structure Command where
  tool : Bytes
  exe : Bytes
  words : List Word
  deriving DecidableEq

def command (tool : String) (words : List Word) : Except Bytes Command :=
  match canonicalPaths.lookup (bytes tool) with
  | none => .error (bytes tool)
  | some exe => .ok ⟨bytes tool, exe, words⟩

/-- A word that the runner writes. -/
def literal (text : String) : Word := .fixed (bytes text)

/-! ## Account management -/

section Commands

variable (runner : Runner)

def groupadd (groupname : Bytes) (gid : Int) : Except Bytes Command := do
  require (isValidGroupname groupname) "invalid_groupname"
  (if gid ≠ -1 then runner.validateGid gid else .ok ())
  if 0 < gid then command "groupadd" [literal "-g", .fixed (decimalInt gid), .given groupname]
  else command "groupadd" [.given groupname]

/-- The group's name is not read. -/
def useradd (username : Bytes) (uid gid : Int) (home shell _groupname : Bytes) : Except Bytes Command := do
  require (isValidUsername username) "invalid_username"
  runner.validateUid uid
  runner.validateGid gid
  runner.validatePathManaged home
  require (isValidShell shell) "invalid_shell"
  command "useradd"
    [literal "-u", .fixed (decimalInt uid), literal "-g", .fixed (decimalInt gid), literal "-d", .given home, literal "-s",
      .given shell, literal "-M", .given username]

def usermodAddGroup (username groupname : Bytes) : Except Bytes Command := do
  require (isValidUsername username) "invalid_username"
  require (isValidGroupname groupname) "invalid_groupname"
  command "usermod" [literal "-a", literal "-G", .given groupname, .given username]

def usermodRemoveGroup (username groupname : Bytes) : Except Bytes Command := do
  require (isValidUsername username) "invalid_username"
  require (isValidGroupname groupname) "invalid_groupname"
  command "gpasswd" [literal "-d", .given username, .given groupname]

def passwdLock (username : Bytes) : Except Bytes Command := do
  require (isValidUsername username) "invalid_username"
  command "passwd" [literal "-l", .given username]

def passwdUnlock (username : Bytes) : Except Bytes Command := do
  require (isValidUsername username) "invalid_username"
  command "passwd" [literal "-u", .given username]

def userdel (username : Bytes) : Except Bytes Command := do
  require (isValidUsername username) "invalid_username"
  command "userdel" [.given username]

def groupdel (groupname : Bytes) : Except Bytes Command := do
  require (isValidGroupname groupname) "invalid_groupname"
  command "groupdel" [.given groupname]

def usermodExpiredate (username date : Bytes) : Except Bytes Command := do
  require (isValidUsername username) "invalid_username"
  require (isValidDate date) "invalid_date"
  command "usermod" [literal "--expiredate", .given date, .given username]

def usermodShell (username shell : Bytes) : Except Bytes Command := do
  require (isValidUsername username) "invalid_username"
  require (isValidShell shell) "invalid_shell"
  command "usermod" [literal "-s", .given shell, .given username]

/-! ## File system permissions -/

def chgrp (group path : Bytes) : Except Bytes Command := do
  require (isValidGroupname group) "invalid_group"
  runner.validatePathManaged path
  command "chgrp" [.given group, literal "--", .given path]

def chmod (mode path : Bytes) : Except Bytes Command := do
  require (isValidOctalMode mode) "invalid_mode"
  runner.validatePathManaged path
  command "chmod" [.given mode, literal "--", .given path]

def setfaclModify (aclSpec path : Bytes) : Except Bytes Command := do
  require (isValidAclSpec aclSpec) "invalid_acl_spec"
  runner.validatePathManaged path
  command "setfacl" [literal "-m", .given aclSpec, literal "--", .given path]

def setfaclRemove (aclSpec path : Bytes) : Except Bytes Command := do
  require (isValidAclSpec aclSpec) "invalid_acl_spec"
  runner.validatePathManaged path
  command "setfacl" [literal "-x", .given aclSpec, literal "--", .given path]

/-! ## Mounts and directories -/

def mkdirP (path : Bytes) : Except Bytes Command := do
  runner.validatePathManaged path
  command "mkdir" [literal "-p", literal "--", .given path]

def mountBind (source target : Bytes) : Except Bytes Command := do
  runner.validatePathManaged source
  runner.validatePathManaged target
  command "mount" [literal "--bind", literal "--", .given source, .given target]

def umount (target : Bytes) : Except Bytes Command := do
  runner.validatePathManaged target
  command "umount" [literal "--", .given target]

def mountpointCheck (path : Bytes) : Except Bytes Command := do
  runner.validatePathManaged path
  command "mountpoint" [literal "-q", literal "--", .given path]

def rmdir (path : Bytes) : Except Bytes Command := do
  runner.validatePathManaged path
  command "rmdir" [literal "--", .given path]

def chownRoot (path : Bytes) : Except Bytes Command := do
  runner.validatePathManaged path
  command "chown" [literal "root:root", literal "--", .given path]

def dirIsEmpty (path : Bytes) : Except Bytes Command := do
  runner.validatePathManaged path
  command "ls" [literal "-A", literal "--", .given path]

end Commands

/-! ## All of them -/

/-- A call of one of the methods. -/
inductive Call where
  | groupadd (groupname : Bytes) (gid : Int)
  | useradd (username : Bytes) (uid gid : Int) (home shell groupname : Bytes)
  | usermodAddGroup (username groupname : Bytes)
  | usermodRemoveGroup (username groupname : Bytes)
  | passwdLock (username : Bytes)
  | passwdUnlock (username : Bytes)
  | userdel (username : Bytes)
  | groupdel (groupname : Bytes)
  | usermodExpiredate (username date : Bytes)
  | usermodShell (username shell : Bytes)
  | chgrp (group path : Bytes)
  | chmod (mode path : Bytes)
  | setfaclModify (aclSpec path : Bytes)
  | setfaclRemove (aclSpec path : Bytes)
  | mkdirP (path : Bytes)
  | mountBind (source target : Bytes)
  | umount (target : Bytes)
  | mountpointCheck (path : Bytes)
  | rmdir (path : Bytes)
  | chownRoot (path : Bytes)
  | dirIsEmpty (path : Bytes)
  deriving DecidableEq

/-- The command of a call, or the message that refuses it. -/
def Call.build (runner : Runner) : Call → Except Bytes Command
  | groupadd groupname gid => CommandRunner.groupadd runner groupname gid
  | useradd username uid gid home shell groupname => CommandRunner.useradd runner username uid gid home shell groupname
  | usermodAddGroup username groupname => CommandRunner.usermodAddGroup username groupname
  | usermodRemoveGroup username groupname => CommandRunner.usermodRemoveGroup username groupname
  | passwdLock username => CommandRunner.passwdLock username
  | passwdUnlock username => CommandRunner.passwdUnlock username
  | userdel username => CommandRunner.userdel username
  | groupdel groupname => CommandRunner.groupdel groupname
  | usermodExpiredate username date => CommandRunner.usermodExpiredate username date
  | usermodShell username shell => CommandRunner.usermodShell username shell
  | chgrp group path => CommandRunner.chgrp runner group path
  | chmod mode path => CommandRunner.chmod runner mode path
  | setfaclModify aclSpec path => CommandRunner.setfaclModify runner aclSpec path
  | setfaclRemove aclSpec path => CommandRunner.setfaclRemove runner aclSpec path
  | mkdirP path => CommandRunner.mkdirP runner path
  | mountBind source target => CommandRunner.mountBind runner source target
  | umount target => CommandRunner.umount runner target
  | mountpointCheck path => CommandRunner.mountpointCheck runner path
  | rmdir path => CommandRunner.rmdir runner path
  | chownRoot path => CommandRunner.chownRoot runner path
  | dirIsEmpty path => CommandRunner.dirIsEmpty runner path

end ContainerCP.CommandRunner
