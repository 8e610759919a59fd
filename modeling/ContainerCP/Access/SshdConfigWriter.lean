import ContainerCP.Text.Decimal

/-! `SshdConfigWriter`: installing the include file of sshd, with a rollback when sshd
does not take it. What the steps do that may fail is open; reading the include file is
taken to work. -/
namespace ContainerCP.Access.SshdConfigWriter

abbrev OperationResult := Except Bytes Bytes

/-- The dash of the texts, in UTF-8. -/
def emDash : Bytes := [0xE2, 0x80, 0x94]

def renderContent : Bytes :=
  bytes "# Managed by ContainerCP " ++ emDash ++ bytes " do not edit manually\n" ++
  bytes "# ARCH-009 local SFTP user access\n" ++
  bytes "\n" ++
  bytes "Match Group containercp-sftp\n" ++
  bytes "    ChrootDirectory /srv/containercp/users/%u\n" ++
  bytes "    ForceCommand internal-sftp\n" ++
  bytes "    PasswordAuthentication no\n" ++
  bytes "    PubkeyAuthentication yes\n" ++
  bytes "    AuthorizedKeysFile /srv/containercp/ssh/authorized_keys/%u\n" ++
  bytes "    PermitTTY no\n" ++
  bytes "    AllowTcpForwarding no\n" ++
  bytes "    AllowAgentForwarding no\n" ++
  bytes "    X11Forwarding no\n" ++
  bytes "    PermitTunnel no\n" ++
  bytes "    GatewayPorts no\n"

/-- The exit of a command, with what `run_cmd` takes for its message. -/
structure CommandResult where
  success : Bool
  message : Bytes := []
  deriving DecidableEq

/-- What `write_atomic` does. A stream that fails only when it is closed keeps a part
of the content, and nothing tells. -/
inductive WriteOutcome where
  | failed
  | stored (kept : Nat)
  deriving DecidableEq

/-- What happens in `reload_and_verify`. -/
structure Reload where
  check : CommandResult
  pidFile : Bytes
  hup : CommandResult
  alive : CommandResult
  deriving DecidableEq

/-- What happens in one run: the check of the file that is there, the candidate, the
install with its checks, and the two ways of a rollback. -/
structure Steps where
  currentCheck : CommandResult
  candidateWritten : Bool
  candidateCheck : CommandResult
  install : WriteOutcome
  effectiveCheck : CommandResult
  reload : Reload
  rollbackWrite : WriteOutcome
  rollbackRemoves : Bool
  deriving DecidableEq

/-- The number of the process in the text of the file. `strtol` stops at the largest
`long`. -/
def readPid (text : Bytes) : Option Nat :=
  match scanNumeral text with
  | none => none
  | some numeral =>
      if numeral.rest = [] ∧ 0 < numeral.value then some (min numeral.magnitude (2 ^ 63 - 1)) else none

def reloadAndVerify (reload : Reload) : OperationResult :=
  let pidContent := reload.pidFile.takeWhile (· ≠ ascii '\n')
  if !reload.check.success then .error (bytes "sshd -t rejected config: " ++ reload.check.message)
  else if pidContent = [] then .error (bytes "cannot read sshd PID from /run/sshd.pid")
  else
    match readPid pidContent with
    | none => .error (bytes "invalid sshd PID: " ++ pidContent)
    | some pid =>
        if !reload.hup.success then
          .error (bytes "kill -HUP sshd (" ++ decimal pid ++ bytes ") failed: " ++ reload.hup.message)
        else if !reload.alive.success then
          .error (bytes "sshd process " ++ decimal pid ++ bytes " not responding after HUP")
        else .ok (bytes "sshd reloaded via HUP")

/-- `validate_content`: it works on a file of its own. -/
def validateContent (steps : Steps) : OperationResult :=
  if !steps.candidateWritten then .error (bytes "failed to write candidate config")
  else if !steps.candidateCheck.success then
    .error (bytes "sshd -t rejected candidate: " ++ steps.candidateCheck.message)
  else .ok []

/-- The include file after `write_atomic`. -/
def written (content : Bytes) (outcome : WriteOutcome) (file : Option Bytes) : Option Bytes :=
  match outcome with
  | .failed => file
  | .stored kept => some (content.take kept)

/-- The rollback at both exits. The result of the write is dropped, and so is that of
the reload behind it. -/
def rolledBack (steps : Steps) (previousContent : Bytes) (file : Option Bytes) : Option Bytes :=
  if previousContent ≠ [] then written previousContent steps.rollbackWrite file
  else if steps.rollbackRemoves then none
  else file

/-- `read_file`: an absent file and an empty one give the same text. -/
def readFile (file : Option Bytes) : Bytes := file.getD []

/-- `ensure_config` on the include file: its result, and the file afterwards. -/
def ensureConfig (steps : Steps) (includePath : Bytes) (file : Option Bytes) : OperationResult × Option Bytes :=
  if readFile file = renderContent ∧ steps.currentCheck.success then
    (.ok (bytes "sshd config already up to date"), file)
  else
    match validateContent steps with
    | .error message => (.error message, file)
    | .ok _ =>
        let previousContent := readFile file
        match steps.install with
        | .failed => (.error (bytes "failed to write sshd config: " ++ includePath), file)
        | .stored kept =>
            let installed := written renderContent (.stored kept) file
            if !steps.effectiveCheck.success then
              (.error (bytes "effective config validation failed after install: " ++ steps.effectiveCheck.message ++
                bytes " " ++ emDash ++ bytes " rolled back"), rolledBack steps previousContent installed)
            else
              match reloadAndVerify steps.reload with
              | .error message =>
                  (.error (bytes "reload failed after config install: " ++ message ++ bytes " " ++ emDash ++
                    bytes " rolled back"), rolledBack steps previousContent installed)
              | .ok _ => (.ok (bytes "sshd config installed and active: " ++ includePath), installed)

/-! ## What a failure leaves -/

/-- The new file does not stay: sshd refuses it, or cannot be told of it. -/
def Refused (steps : Steps) : Prop :=
  steps.effectiveCheck.success = false ∨ ∃ message, reloadAndVerify steps.reload = .error message

/-- The run gets as far as the install. -/
def Installs (steps : Steps) (file : Option Bytes) : Prop :=
  ¬(readFile file = renderContent ∧ steps.currentCheck.success = true) ∧ steps.candidateWritten = true ∧
    steps.candidateCheck.success = true

/-- The rollback of a file of which the install kept so many bytes restores it. -/
def Restores (steps : Steps) (kept : Nat) : Option Bytes → Prop
  | none => steps.rollbackRemoves = true
  | some [] => steps.rollbackRemoves = false ∧ kept = 0
  | some (c :: rest) =>
      match steps.rollbackWrite with
      | .failed => renderContent.take kept = c :: rest
      | .stored back => (c :: rest).length ≤ back

theorem renderContent_ne_nil : renderContent ≠ [] := by
  intro hEmpty
  have hHead : renderContent.head? = some (ascii '#') := rfl
  rw [hEmpty] at hHead
  cases hHead

theorem rolledBack_eq_iff {steps : Steps} {kept : Nat} {file : Option Bytes} :
    rolledBack steps (readFile file) (some (renderContent.take kept)) = file ↔ Restores steps kept file := by
  match file with
  | none => simp [rolledBack, readFile, Restores]
  | some [] =>
      simp only [rolledBack, readFile, Option.getD_some, ne_eq, not_true_eq_false, if_false, Restores]
      cases steps.rollbackRemoves <;> simp [List.take_eq_nil_iff, renderContent_ne_nil]
  | some (c :: rest) =>
      simp only [rolledBack, readFile, Option.getD_some, ne_eq, reduceCtorEq, not_false_eq_true, if_true, Restores]
      cases steps.rollbackWrite with
      | failed => simp [written]
      | stored back =>
          rw [written, Option.some_inj]
          refine ⟨fun hSame => ?_, List.take_of_length_le⟩
          have hLength := congrArg List.length hSame
          rw [List.length_take] at hLength
          omega

/-- A failure leaves the include file as it was exactly when it comes before the
install, or the rollback restores the file. -/
theorem ensureConfig_failure_iff (steps : Steps) (includePath : Bytes) (file : Option Bytes) :
    ((∃ message, (ensureConfig steps includePath file).1 = .error message) →
      (ensureConfig steps includePath file).2 = file) ↔
    (Installs steps file → Refused steps → ∀ kept, steps.install = .stored kept → Restores steps kept file) := by
  by_cases hCurrent : readFile file = renderContent ∧ steps.currentCheck.success = true
  · simp [ensureConfig, Installs, hCurrent]
  by_cases hWritten : steps.candidateWritten = true
  · by_cases hCandidate : steps.candidateCheck.success = true
    · have hInstalls : Installs steps file := ⟨hCurrent, hWritten, hCandidate⟩
      cases hInstall : steps.install with
      | failed => simp [ensureConfig, validateContent, hCurrent, hWritten, hCandidate, hInstall]
      | stored kept =>
          have hRestores := @rolledBack_eq_iff steps kept file
          cases hEffective : steps.effectiveCheck.success with
          | false =>
              simp [ensureConfig, validateContent, hCurrent, hWritten, hCandidate, hInstall, hEffective, hInstalls, Refused,
                written, hRestores]
          | true =>
              cases hReload : reloadAndVerify steps.reload with
              | error message =>
                  simp [ensureConfig, validateContent, hCurrent, hWritten, hCandidate, hInstall, hEffective, hInstalls,
                    Refused, written, hReload, hRestores]
              | ok message =>
                  simp [ensureConfig, validateContent, hCurrent, hWritten, hCandidate, hInstall, hEffective, Refused, hReload]
    · simp [ensureConfig, validateContent, Installs, hCurrent, hWritten, hCandidate]
  · simp [ensureConfig, validateContent, Installs, hCurrent, hWritten]

/-- All steps work, but the process of sshd cannot be found. -/
def sampleSteps : Steps where
  currentCheck := ⟨true, []⟩
  candidateWritten := true
  candidateCheck := ⟨true, []⟩
  install := .stored renderContent.length
  effectiveCheck := ⟨true, []⟩
  reload := ⟨⟨true, []⟩, [], ⟨true, []⟩, ⟨true, []⟩⟩
  rollbackWrite := .stored renderContent.length
  rollbackRemoves := true

/-- The rollback removes an empty file. -/
theorem ensureConfig_empty_lost :
    let result := ensureConfig sampleSteps (bytes "/etc/ssh/sshd_config.d/90-containercp-sftp.conf") (some [])
    (∃ message, result.1 = .error message) ∧ result.2 = none := by
  have hOther : ¬(readFile (some []) = renderContent ∧ sampleSteps.currentCheck.success = true) :=
    fun h => renderContent_ne_nil h.1.symm
  intro result
  have hResult : result = ensureConfig sampleSteps (bytes "/etc/ssh/sshd_config.d/90-containercp-sftp.conf") (some []) := rfl
  rw [ensureConfig, if_neg hOther] at hResult
  rw [hResult]
  exact ⟨⟨_, rfl⟩, rfl⟩

end ContainerCP.Access.SshdConfigWriter
