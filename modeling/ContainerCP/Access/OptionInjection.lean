import ContainerCP.Access.SystemAccountCommandRunner

/-! The commands of the runner as their tools read them: which strings of a caller could be
taken for options. -/
namespace ContainerCP.CommandRunner

open Posix

/-- The options with a value, of those that the runner writes. -/
def valueOptions : List (Bytes × List Bytes) :=
  [(bytes "groupadd", [bytes "-g"]), (bytes "useradd", [bytes "-u", bytes "-g", bytes "-d", bytes "-s"]),
    (bytes "usermod", [bytes "-G", bytes "--expiredate", bytes "-s"]), (bytes "gpasswd", [bytes "-d"]),
    (bytes "setfacl", [bytes "-m", bytes "-x"])]

def takesValue (tool : Bytes) : Tool := fun option => ((valueOptions.lookup tool).getD []).contains option

/-- The tool of a command reads none of the caller's strings as an option. -/
def Command.Safe (command : Command) : Prop := NoInjection (takesValue command.tool) command.words

/-- The names that a method puts neither behind a separator nor behind an option. -/
def Call.bareNames : Call → List Bytes
  | groupadd groupname _ => [groupname]
  | useradd username _ _ _ _ _ => [username]
  | usermodAddGroup username _ => [username]
  | usermodRemoveGroup _ groupname => [groupname]
  | passwdLock username => [username]
  | passwdUnlock username => [username]
  | userdel username => [username]
  | groupdel groupname => [groupname]
  | usermodExpiredate username _ => [username]
  | usermodShell username _ => [username]
  | chgrp group _ => [group]
  | _ => []

/-! ## What an accepted call builds -/

theorem bind_ok {α β : Type} {x : Except Bytes α} {f : α → Except Bytes β} {result : β} (h : (x >>= f) = .ok result) :
    ∃ a, x = .ok a ∧ f a = .ok result := by
  cases x with
  | error error => cases h
  | ok a => exact ⟨a, rfl, h⟩

theorem of_require_ok {accepted : Bool} {message : String} {u : Unit} (h : require accepted message = .ok u) : accepted = true := by
  cases accepted with
  | true => rfl
  | false => cases h

/-- The command behind the checks. -/
theorem of_command_ok {tool : String} {words : List Word} {result : Command} (h : command tool words = .ok result) :
    result.tool = bytes tool ∧ result.words = words := by
  unfold command at h
  split at h
  · cases h
  · obtain rfl := Except.ok.inj h
    exact ⟨rfl, rfl⟩

theorem safe_of_command_ok {tool : String} {words : List Word} {result : Command} (h : command tool words = .ok result) :
    result.Safe ↔ NoInjection (takesValue (bytes tool)) words := by
  obtain ⟨hTool, hWords⟩ := of_command_ok h
  rw [Command.Safe, hTool, hWords]

/-- A mode of digits begins with no dash. -/
theorem startsWithDash_of_octal {mode : Bytes} (h : isValidOctalMode mode = true) : startsWithDash mode = false := by
  simp only [isValidOctalMode, Bool.and_eq_true] at h
  cases mode with
  | nil => rfl
  | cons c rest =>
      have hDigit := List.all_eq_true.mp h.2 c List.mem_cons_self
      by_contra hDash
      obtain rfl : c = ascii '-' := by simpa [startsWithDash] using hDash
      exact absurd hDigit (by decide)

/-! ## The tools -/

section Tools

variable {takes : Tool}

theorem noInjection_name (name : Bytes) : NoInjection takes [.given name] ↔ ∀ bare ∈ [name], startsWithDash bare = false := by
  rw [noInjection_given, List.forall_mem_singleton]
  exact and_iff_left noInjection_nil

/-- Everything that was given stands behind a separator. -/
theorem noInjection_flag_separator {flag : String} (hSeparator : bytes flag ≠ separatorText) (hValue : takes (bytes flag) = false)
    (rest : List Word) :
    NoInjection takes (literal flag :: literal "--" :: rest) ↔ ∀ bare ∈ ([] : List Bytes), startsWithDash bare = false := by
  rw [literal, noInjection_flag hSeparator hValue]
  exact iff_of_true (noInjection_separator rest) fun _ h => absurd h List.not_mem_nil

theorem noInjection_only_separator (rest : List Word) :
    NoInjection takes (literal "--" :: rest) ↔ ∀ bare ∈ ([] : List Bytes), startsWithDash bare = false :=
  iff_of_true (noInjection_separator rest) fun _ h => absurd h List.not_mem_nil

end Tools

variable {runner : Runner} {call : Call} {result : Command}

/-- An accepted call is safe exactly where the names that it leaves bare begin with no dash. -/
theorem safe_iff (h : call.build runner = .ok result) : result.Safe ↔ ∀ name ∈ call.bareNames, startsWithDash name = false := by
  cases call with
  | groupadd groupname gid =>
      obtain ⟨-, -, h⟩ := bind_ok h
      obtain ⟨-, -, h⟩ := bind_ok h
      split at h
      · rw [safe_of_command_ok h, literal, noInjection_option (by decide) (by decide) (by decide) (by decide)]
        exact noInjection_name groupname
      · rw [safe_of_command_ok h]
        exact noInjection_name groupname
  | useradd username uid gid home shell groupname =>
      obtain ⟨-, -, h⟩ := bind_ok h
      obtain ⟨-, -, h⟩ := bind_ok h
      obtain ⟨-, -, h⟩ := bind_ok h
      obtain ⟨-, -, h⟩ := bind_ok h
      obtain ⟨-, -, h⟩ := bind_ok h
      rw [safe_of_command_ok h, literal, noInjection_option (by decide) (by decide) (by decide) (by decide), literal,
        noInjection_option (by decide) (by decide) (by decide) (by decide), literal,
        noInjection_option (by decide) (by decide) (by decide) (by decide), literal,
        noInjection_option (by decide) (by decide) (by decide) (by decide), literal, noInjection_flag (by decide) (by decide)]
      exact noInjection_name username
  | usermodAddGroup username groupname =>
      obtain ⟨-, -, h⟩ := bind_ok h
      obtain ⟨-, -, h⟩ := bind_ok h
      rw [safe_of_command_ok h, literal, noInjection_flag (by decide) (by decide), literal,
        noInjection_option (by decide) (by decide) (by decide) (by decide)]
      exact noInjection_name username
  | usermodRemoveGroup username groupname =>
      obtain ⟨-, -, h⟩ := bind_ok h
      obtain ⟨-, -, h⟩ := bind_ok h
      rw [safe_of_command_ok h, literal, noInjection_option (by decide) (by decide) (by decide) (by decide)]
      exact noInjection_name groupname
  | passwdLock username =>
      obtain ⟨-, -, h⟩ := bind_ok h
      rw [safe_of_command_ok h, literal, noInjection_flag (by decide) (by decide)]
      exact noInjection_name username
  | passwdUnlock username =>
      obtain ⟨-, -, h⟩ := bind_ok h
      rw [safe_of_command_ok h, literal, noInjection_flag (by decide) (by decide)]
      exact noInjection_name username
  | userdel username =>
      obtain ⟨-, -, h⟩ := bind_ok h
      rw [safe_of_command_ok h]
      exact noInjection_name username
  | groupdel groupname =>
      obtain ⟨-, -, h⟩ := bind_ok h
      rw [safe_of_command_ok h]
      exact noInjection_name groupname
  | usermodExpiredate username date =>
      obtain ⟨-, -, h⟩ := bind_ok h
      obtain ⟨-, -, h⟩ := bind_ok h
      rw [safe_of_command_ok h, literal, noInjection_option (by decide) (by decide) (by decide) (by decide)]
      exact noInjection_name username
  | usermodShell username shell =>
      obtain ⟨-, -, h⟩ := bind_ok h
      obtain ⟨-, -, h⟩ := bind_ok h
      rw [safe_of_command_ok h, literal, noInjection_option (by decide) (by decide) (by decide) (by decide)]
      exact noInjection_name username
  | chgrp group path =>
      obtain ⟨-, -, h⟩ := bind_ok h
      obtain ⟨-, -, h⟩ := bind_ok h
      rw [safe_of_command_ok h, noInjection_given, Call.bareNames, List.forall_mem_singleton]
      exact and_iff_left (noInjection_separator _)
  | chmod mode path =>
      obtain ⟨_, hMode, h⟩ := bind_ok h
      obtain ⟨-, -, h⟩ := bind_ok h
      rw [safe_of_command_ok h, noInjection_given]
      have hDigits := startsWithDash_of_octal (of_require_ok hMode)
      exact iff_of_true ⟨hDigits, noInjection_separator _⟩ fun _ h => absurd h List.not_mem_nil
  | setfaclModify aclSpec path =>
      obtain ⟨-, -, h⟩ := bind_ok h
      obtain ⟨-, -, h⟩ := bind_ok h
      rw [safe_of_command_ok h, literal, noInjection_option (by decide) (by decide) (by decide) (by decide)]
      exact noInjection_only_separator _
  | setfaclRemove aclSpec path =>
      obtain ⟨-, -, h⟩ := bind_ok h
      obtain ⟨-, -, h⟩ := bind_ok h
      rw [safe_of_command_ok h, literal, noInjection_option (by decide) (by decide) (by decide) (by decide)]
      exact noInjection_only_separator _
  | mkdirP path =>
      obtain ⟨-, -, h⟩ := bind_ok h
      rw [safe_of_command_ok h]
      exact noInjection_flag_separator (by decide) (by decide) _
  | mountBind source target =>
      obtain ⟨-, -, h⟩ := bind_ok h
      obtain ⟨-, -, h⟩ := bind_ok h
      rw [safe_of_command_ok h]
      exact noInjection_flag_separator (by decide) (by decide) _
  | umount target =>
      obtain ⟨-, -, h⟩ := bind_ok h
      rw [safe_of_command_ok h]
      exact noInjection_only_separator _
  | mountpointCheck path =>
      obtain ⟨-, -, h⟩ := bind_ok h
      rw [safe_of_command_ok h]
      exact noInjection_flag_separator (by decide) (by decide) _
  | rmdir path =>
      obtain ⟨-, -, h⟩ := bind_ok h
      rw [safe_of_command_ok h]
      exact noInjection_only_separator _
  | chownRoot path =>
      obtain ⟨-, -, h⟩ := bind_ok h
      rw [safe_of_command_ok h]
      exact noInjection_flag_separator (by decide) (by decide) _
  | dirIsEmpty path =>
      obtain ⟨-, -, h⟩ := bind_ok h
      rw [safe_of_command_ok h]
      exact noInjection_flag_separator (by decide) (by decide) _

theorem safe_iff_sample :
    (Call.userdel (bytes "web_1")).build {} = .ok ⟨bytes "userdel", bytes "/usr/sbin/userdel", [.given (bytes "web_1")]⟩ ∧
      (Command.Safe ⟨bytes "userdel", bytes "/usr/sbin/userdel", [.given (bytes "web_1")]⟩ ↔
        ∀ name ∈ (Call.userdel (bytes "web_1")).bareNames, startsWithDash name = false) := by
  have hBuild : (Call.userdel (bytes "web_1")).build {} = .ok ⟨bytes "userdel", bytes "/usr/sbin/userdel", [.given (bytes "web_1")]⟩ := by
    decide
  exact ⟨hBuild, safe_iff hBuild⟩

/-- The removal of an account named `-rf` reads options. -/
theorem userdel_not_safe : (Call.userdel (bytes "-rf")).build {} =
      .ok ⟨bytes "userdel", bytes "/usr/sbin/userdel", [.given (bytes "-rf")]⟩ ∧
    ¬Command.Safe ⟨bytes "userdel", bytes "/usr/sbin/userdel", [.given (bytes "-rf")]⟩ := by
  refine ⟨by decide, fun h => ?_⟩
  have hDash := (noInjection_given _ _).mp h
  exact absurd hDash.1 (by decide)

end ContainerCP.CommandRunner
