import ContainerCP.Control.Transcript
import ContainerCP.Text.Decimal
import ContainerCP.Text.Lines

/-! `WordPressCliService`: WP-CLI in a container of its own, which is removed behind each
command, and the removal of containers that were left behind. Docker is a party with a state,
which may answer each command with anything. -/
namespace ContainerCP.WordPressCli

open Control

structure CommandResult where
  exitCode : Int := -1
  out : Bytes := []
  err : Bytes := []
  deriving DecidableEq

/-- What `run_safe` is given. It cuts what Docker prints off behind so many bytes: an answer has
what is left. -/
structure Command where
  words : List Bytes
  timeoutSeconds : Int
  maxOutputBytes : Nat
  deriving DecidableEq

/-- The members of `WordPressRuntimeContext` that a command reads. -/
structure RuntimeContext where
  ok : Bool := false
  failureCode : Bytes := []
  immutablePhpImageId : Bytes := []
  privateNetwork : Bytes := []
  documentRoot : Bytes := []
  containerDocumentRoot : Bytes := []
  phpFpmUid : Int64 := -1
  phpFpmGid : Int64 := -1
  readOnlyCapable : Bool := false
  mutationCapable : Bool := false
  deriving DecidableEq

structure Artifact where
  ok : Bool := false
  failureCode : Bytes := []
  message : Bytes := []
  pharPath : Bytes := []
  deriving DecidableEq

structure Metadata where
  isRegular : Bool
  isLink : Bool
  uid : UInt32
  mode : UInt32
  deriving DecidableEq

/-- The service with what it reads besides Docker: `lstat` of the executable, the resolver, the
verdict on the artifact, and the random text that `SecureRandom::hex` gives. -/
structure Service where
  dockerExecutable : Bytes := bytes "/usr/bin/docker"
  runnerTimeoutSeconds : Int := 60
  cleanupTimeoutSeconds : Int := 15
  lstat : Bytes → Option Metadata
  resolve : UInt64 → RuntimeContext
  artifact : Artifact
  executionId : Option Bytes

structure Result where
  success : Bool := false
  failureCode : Bytes := []
  message : Bytes := []
  output : Bytes := []
  diagnostic : Bytes := []
  cleanupSucceeded : Bool := false
  exitCode : Int := -1
  deriving DecidableEq

inductive RunnerPresenceState where
  | absent
  | present
  | unknown
  deriving DecidableEq

structure RunnerPresence where
  state : RunnerPresenceState := .unknown
  message : Bytes := []
  deriving DecidableEq

abbrev Docker (State : Type) := Party State Command CommandResult

abbrev Event := Exchange Command CommandResult

def kMaxOutputBytes : Nat := 65536

def kRunnerLabel : Bytes := bytes "containercp.wpcli.managed=true"

def kRunnerPrefix : Bytes := bytes "containercp-wpcli-"

def kRunnerInspectFormat : Bytes :=
  bytes "\x7b\x7b.Name\x7d\x7d|\x7b\x7bindex .Config.Labels \"containercp.wpcli.managed\"\x7d\x7d|" ++
  bytes "\x7b\x7bindex .Config.Labels \"containercp.wpcli.site.id\"\x7d\x7d|" ++
  bytes "\x7b\x7bindex .Config.Labels \"containercp.wpcli.operation\"\x7d\x7d|" ++
  bytes "\x7b\x7bindex .Config.Labels \"containercp.wpcli.execution.id\"\x7d\x7d|" ++
  bytes "\x7b\x7bindex .Config.Labels \"containercp.wpcli.runner.id\"\x7d\x7d"

def splitPipe (value : Bytes) : List Bytes := (getlines pipe value).map trim

def failure (code message : Bytes) : Result := { failureCode := code, message := message }

def trustedDockerExecutable (service : Service) : Bool :=
  if service.dockerExecutable.head? ≠ some (ascii '/') then false
  else
    match service.lstat service.dockerExecutable with
    | none => false
    | some metadata =>
        if !metadata.isRegular || metadata.isLink || metadata.uid ≠ 0 || metadata.mode &&& 0o022 ≠ 0 then false
        else metadata.mode &&& 0o111 ≠ 0

def runnerName (site : UInt64) (executionId : Bytes) : Bytes :=
  if executionId = [] then []
  else kRunnerPrefix ++ decimal site.toNat ++ bytes "-" ++ executionId

/-! ## The commands -/

def inspectWords (runner : Bytes) : List Bytes := [bytes "inspect", runner, bytes "--format", kRunnerInspectFormat]

def removeWords (runner : Bytes) : List Bytes := [bytes "rm", bytes "-f", runner]

def presenceWords (identifier : Bytes) : List Bytes :=
  [bytes "ps", bytes "-a", bytes "--no-trunc", bytes "--filter", bytes "name=^" ++ identifier ++ bytes "$",
    bytes "--format", bytes "\x7b\x7b.Names\x7d\x7d"]

def runnersWords : List Bytes :=
  [bytes "ps", bytes "-a", bytes "--filter", bytes "label=" ++ kRunnerLabel, bytes "--format", bytes "\x7b\x7b.Names\x7d\x7d"]

def runWords (context : RuntimeContext) (artifact : Artifact) (site : UInt64) (operationName executionId name : Bytes)
    (arguments : List Bytes) (writable : Bool) : List Bytes :=
  [bytes "run", bytes "--name", name,
    bytes "--label", kRunnerLabel,
    bytes "--label", bytes "containercp.wpcli.site.id=" ++ decimal site.toNat,
    bytes "--label", bytes "containercp.wpcli.operation=" ++ operationName,
    bytes "--label", bytes "containercp.wpcli.execution.id=" ++ executionId,
    bytes "--label", bytes "containercp.wpcli.runner.id=" ++ name,
    bytes "--network", context.privateNetwork,
    bytes "--mount", bytes "type=bind,src=" ++ context.documentRoot ++ bytes ",dst=" ++ context.containerDocumentRoot ++
      (if writable then [] else bytes ",readonly"),
    bytes "--mount", bytes "type=bind,src=" ++ artifact.pharPath ++ bytes ",dst=/opt/containercp/wp-cli/wp-cli.phar,readonly",
    bytes "--read-only", bytes "--cap-drop=ALL", bytes "--security-opt=no-new-privileges",
    bytes "--pids-limit", bytes "64", bytes "--memory", bytes "256m", bytes "--cpus", bytes "1",
    bytes "--tmpfs", bytes "/tmp:rw,noexec,nosuid,size=64m",
    bytes "--tmpfs", bytes "/home/wpcli:rw,noexec,nosuid,size=16m",
    bytes "--user", decimalInt context.phpFpmUid.toInt ++ bytes ":" ++ decimalInt context.phpFpmGid.toInt,
    bytes "--workdir", context.containerDocumentRoot,
    bytes "--env", bytes "HOME=/home/wpcli",
    context.immutablePhpImageId,
    bytes "php", bytes "/opt/containercp/wp-cli/wp-cli.phar"] ++ arguments

def dockerCommand (service : Service) (words : List Bytes) (timeoutSeconds : Int) (maxOutputBytes : Nat) : Command :=
  ⟨service.dockerExecutable :: words, timeoutSeconds, maxOutputBytes⟩

section Procedures

variable {State : Type}

abbrev Dockering (State α : Type) := Asking State Command CommandResult α

def executeDocker (docker : Docker State) (service : Service) (words : List Bytes) (timeoutSeconds : Int) (maxOutputBytes : Nat) :
    Dockering State CommandResult :=
  ask docker (dockerCommand service words timeoutSeconds maxOutputBytes)

/-- The loop over the lines of the listing; `exactMatch` is whether the runner was among the
lines before. -/
def presenceOf (identifier : Bytes) : Bool → List Bytes → RunnerPresence
  | exactMatch, [] =>
      if exactMatch then ⟨.present, bytes "WP-CLI runner is still present"⟩
      else ⟨.absent, bytes "WP-CLI runner is definitely absent"⟩
  | exactMatch, line :: rest =>
      if trim line = [] then presenceOf identifier exactMatch rest
      else if trim line ≠ identifier then ⟨.unknown, bytes "Docker returned an unexpected runner identity"⟩
      else presenceOf identifier true rest

def verifyRunnerAbsent (docker : Docker State) (service : Service) (identifier : Bytes) : Dockering State RunnerPresence := do
  let listed ← executeDocker docker service (presenceWords identifier) service.cleanupTimeoutSeconds 4096
  if listed.exitCode ≠ 0 then pure ⟨.unknown, bytes "Docker state could not prove runner absence"⟩
  else pure (presenceOf identifier false (getlines newline listed.out))

def runnerNotCreated : Result :=
  failure (bytes "wordpress_cli_runner_not_created") (bytes "WP-CLI runner was not created by this operation")

def runnerStateUnproven : Result :=
  failure (bytes "wordpress_cli_runner_state_unknown") (bytes "WP-CLI runner state could not be proven before cleanup")

def identityMismatch : Result :=
  failure (bytes "wordpress_cli_runner_identity_mismatch") (bytes "WP-CLI runner ownership could not be proven before cleanup")

def cleanupCommandFailed : Result :=
  failure (bytes "wordpress_cli_runner_cleanup_failed") (bytes "WP-CLI runner cleanup command failed")

/-- The end of a cleanup, behind the removal. -/
def cleanupOutcome (presence : RunnerPresence) : Result :=
  match presence.state with
  | .present => failure (bytes "wordpress_cli_runner_cleanup_failed") presence.message
  | .unknown => failure (bytes "wordpress_cli_runner_state_unknown") presence.message
  | .absent => { success := true, cleanupSucceeded := true }

def cleanupRunner (docker : Docker State) (service : Service) (runner : Bytes) (site : UInt64) (operationName executionId : Bytes) :
    Dockering State Result := do
  let inspected ← executeDocker docker service (inspectWords runner) service.cleanupTimeoutSeconds 4096
  if inspected.exitCode ≠ 0 then do
    let presence ← verifyRunnerAbsent docker service runner
    if presence.state = .absent then pure runnerNotCreated else pure runnerStateUnproven
  else if splitPipe inspected.out = [bytes "/" ++ runner, bytes "true", decimal site.toNat, operationName, executionId, runner] then do
    let removed ← executeDocker docker service (removeWords runner) service.cleanupTimeoutSeconds 4096
    if removed.exitCode ≠ 0 then pure cleanupCommandFailed
    else do
      let presence ← verifyRunnerAbsent docker service runner
      pure (cleanupOutcome presence)
  else pure identityMismatch

/-- The result of a command, from how it ended and how its runner was cleaned up. -/
def commandOutcome (execution : CommandResult) (cleanup : Result) : Result :=
  let result : Result :=
    { output := execution.out, diagnostic := execution.err, exitCode := execution.exitCode,
      cleanupSucceeded := cleanup.cleanupSucceeded }
  if !cleanup.success then { result with failureCode := cleanup.failureCode, message := cleanup.message }
  else if execution.exitCode ≠ 0 then
    { result with
      failureCode := if execution.exitCode = -1 then bytes "wordpress_cli_timeout" else bytes "wordpress_cli_failed"
      message := bytes "Typed WP-CLI operation failed" }
  else { result with success := true, message := bytes "Typed WP-CLI operation completed" }

def runCommand (docker : Docker State) (service : Service) (site : UInt64) (operationName : Bytes) (arguments : List Bytes)
    (writable : Bool) : Dockering State Result :=
  let context := service.resolve site
  if !context.ok || (if writable then !context.mutationCapable else !context.readOnlyCapable) then
    pure (failure (if context.failureCode = [] then bytes "wordpress_runtime_unavailable" else context.failureCode)
      (bytes "Managed WordPress runtime is unavailable"))
  else if !trustedDockerExecutable service then
    pure (failure (bytes "wordpress_cli_docker_executable_untrusted")
      (bytes "Trusted Docker executable is unavailable: " ++ service.dockerExecutable))
  else if !service.artifact.ok then pure (failure service.artifact.failureCode service.artifact.message)
  else
    match service.executionId with
    | none =>
        pure (failure (bytes "wordpress_cli_execution_id_failed") (bytes "Could not generate an internal WP-CLI execution identity"))
    | some executionId =>
        let name := runnerName site executionId
        if name = [] then
          pure (failure (bytes "wordpress_cli_runner_name_failed") (bytes "Could not generate an internal runner name"))
        else do
          let execution ← executeDocker docker service
            (runWords context service.artifact site operationName executionId name arguments writable)
            service.runnerTimeoutSeconds kMaxOutputBytes
          let cleanup ← cleanupRunner docker service name site operationName executionId
          pure (commandOutcome execution cleanup)

/-- The site, the operation and the execution that an inspection gives to a managed runner. -/
def managedFields (identifier : Bytes) (inspected : CommandResult) : Option (Bytes × Bytes × Bytes) :=
  match splitPipe inspected.out with
  | [name, managed, site, operation, execution, runner] =>
      if inspected.exitCode ≠ 0 || managed ≠ bytes "true" || name ≠ bytes "/" ++ identifier ||
          !(bytes "/" ++ kRunnerPrefix).isPrefixOf name || site = [] || operation = [] || execution = [] || runner ≠ identifier then
        none
      else some (site, operation, execution)
  | _ => none

def reconcileRunner (docker : Docker State) (service : Service) (identifier : Bytes) : Dockering State Result := do
  let inspected ← executeDocker docker service (inspectWords identifier) service.cleanupTimeoutSeconds 4096
  match managedFields identifier inspected with
  | none =>
      pure (failure (bytes "wordpress_cli_reconciliation_rejected") (bytes "Unmanaged runner was not eligible for cleanup"))
  | some (site, operation, execution) =>
      match stoull site with
      | none =>
          pure (failure (bytes "wordpress_cli_reconciliation_rejected") (bytes "Managed runner site identity is invalid"))
      | some site => cleanupRunner docker service identifier site operation execution

def staleRunnersReconciled : Result :=
  { success := true, cleanupSucceeded := true, message := bytes "Managed stale WP-CLI runners reconciled" }

/-- The loop over the listed runners, which ends at the first that is not cleaned up. -/
def reconcileListed (docker : Docker State) (service : Service) : List Bytes → Dockering State Result
  | [] => pure staleRunnersReconciled
  | line :: rest =>
      if trim line = [] then reconcileListed docker service rest
      else do
        let cleanup ← reconcileRunner docker service (trim line)
        if !cleanup.success then pure cleanup else reconcileListed docker service rest

def reconcileStaleRunners (docker : Docker State) (service : Service) : Dockering State Result :=
  if !trustedDockerExecutable service then
    pure (failure (bytes "wordpress_cli_docker_executable_untrusted") (bytes "Trusted Docker executable is unavailable"))
  else do
    let listed ← executeDocker docker service runnersWords service.cleanupTimeoutSeconds 16384
    if listed.exitCode ≠ 0 then
      pure (failure (bytes "wordpress_cli_reconciliation_failed") (bytes "Managed WP-CLI runners could not be enumerated"))
    else reconcileListed docker service (getlines newline listed.out)

end Procedures

end ContainerCP.WordPressCli
