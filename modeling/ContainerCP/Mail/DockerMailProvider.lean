import ContainerCP.Data.FileActions
import ContainerCP.Mail.MailConfig

/-! `DockerMailProvider` on its files: `write_configs`, and `apply_config` with the backup that
it takes and the ways out that restore it. -/
namespace ContainerCP.Mail

/-- The files that the provider knows, and all the others below its directories. -/
inductive MailFile where
  | compose
  | postfixMain
  | virtualMailboxes
  | virtualAliases
  | saslPasswd
  | postfixResolv
  | dovecotConf
  | passwd
  | passwdPhp
  | senderLogin
  | transportMaps
  | dkimSigning
  | rspamdLogging
  | rspamdWorkerProxy
  | rspamdWorkerNormal
  | other (path : Bytes)
  deriving DecidableEq

/-- What can be in the place of a file; `special` is a directory that Docker made of it. -/
inductive Node where
  | regular (content : Bytes)
  | special
  deriving DecidableEq

abbrev MailFiles := MailFile → Option Node

abbrev Action := FileAction MailFile Node

structure CommandResult where
  exitCode : Int := 0
  out : Bytes := []
  err : Bytes := []
  deriving DecidableEq

/-- How the calls of an apply end: the files that can be opened, first and in a rollback, the
specials that can be removed, and the commands in the mail containers. -/
structure ApplyCalls where
  opens : MailFile → Bool := fun _ => true
  removes : MailFile → Bool := fun _ => true
  reopens : MailFile → Bool := fun _ => true
  subnet : Option Bytes := none
  hasKey : MailDomain → Bool := fun _ => false
  postfixCheck : CommandResult := {}
  rspamdCheck : CommandResult := {}
  aliasCheck : CommandResult := {}
  reload : CommandResult := {}
  rspamdReload : CommandResult := {}
  rspamdRestart : CommandResult := {}
  ready : Nat → Bool := fun _ => true

def Provider.configDir (provider : Provider) : Bytes := provider.dataRoot ++ bytes "/mail/config"

def Provider.composeDir (provider : Provider) : Bytes := provider.dataRoot ++ bytes "/mail"

def MailFile.path (provider : Provider) : MailFile → Bytes
  | compose => provider.composeDir ++ bytes "/docker-compose.yml"
  | postfixMain => provider.configDir ++ bytes "/generated/postfix-main.cf"
  | virtualMailboxes => provider.configDir ++ bytes "/generated/virtual_mailboxes"
  | virtualAliases => provider.configDir ++ bytes "/generated/virtual_aliases"
  | saslPasswd => provider.configDir ++ bytes "/generated/sasl_passwd"
  | postfixResolv => provider.configDir ++ bytes "/generated/postfix-resolv.conf"
  | dovecotConf => provider.configDir ++ bytes "/generated/dovecot.conf"
  | passwd => provider.configDir ++ bytes "/generated/passwd"
  | passwdPhp => provider.configDir ++ bytes "/generated/passwd-php"
  | senderLogin => provider.configDir ++ bytes "/generated/sender_login"
  | transportMaps => provider.configDir ++ bytes "/generated/transport_maps"
  | dkimSigning => provider.configDir ++ bytes "/generated/rspamd/dkim_signing.conf"
  | rspamdLogging => provider.configDir ++ bytes "/generated/rspamd/logging.inc"
  | rspamdWorkerProxy => provider.configDir ++ bytes "/generated/rspamd/worker-proxy.inc"
  | rspamdWorkerNormal => provider.configDir ++ bytes "/generated/rspamd/worker-normal.inc"
  | other path => path

/-! ## The compose file -/

/-- A volume below the configuration directory. -/
def configVolume (provider : Provider) (mount : String) : Bytes :=
  bytes "      - " ++ provider.configDir ++ bytes mount ++ bytes "\n"

def sslVolume (provider : Provider) : Bytes :=
  bytes "      - " ++ provider.dataRoot ++ bytes "/ssl/:/srv/containercp/ssl/:ro\n"

def composeText (provider : Provider) : Bytes :=
  textOf ["services:", "  postfix:", "    image: ghcr.io/containercp/mail-postfix:latest",
      "    container_name: containercp-mail-postfix", "    restart: unless-stopped", "    dns:", "      - 8.8.8.8",
      "      - 8.8.4.4", "    ports:", "      - 127.0.0.1:25:25", "      - 127.0.0.1:465:465", "      - 127.0.0.1:587:587",
      "    networks:", "      - containercp-mail", "    volumes:"] ++
    configVolume provider "/generated/postfix-main.cf:/etc/postfix/main.cf:ro" ++
    configVolume provider "/generated/transport_maps:/etc/postfix/transport_maps:ro" ++
    configVolume provider "/generated/virtual_mailboxes:/etc/postfix/virtual_mailboxes:ro" ++
    configVolume provider "/generated/virtual_aliases:/etc/postfix/virtual_aliases:ro" ++
    configVolume provider "/generated/postfix-resolv.conf:/etc/postfix/resolv.conf:ro" ++
    configVolume provider "/generated/sasl_passwd:/etc/postfix/sasl_passwd:ro" ++
    configVolume provider "/generated/sender_login:/etc/postfix/sender_login:ro" ++
    configVolume provider "/custom/postfix/:/etc/postfix/custom/:ro" ++ sslVolume provider ++
    textOf ["    depends_on:", "      - redis", "      - rspamd", "  dovecot:",
      "    image: ghcr.io/containercp/mail-dovecot:latest", "    container_name: containercp-mail-dovecot",
      "    restart: unless-stopped", "    ports:", "      - 127.0.0.1:143:143", "      - 127.0.0.1:993:993", "    networks:",
      "      - containercp-mail", "    volumes:"] ++
    configVolume provider "/generated/dovecot.conf:/etc/dovecot/dovecot.conf:ro" ++
    configVolume provider "/generated/passwd:/etc/dovecot/passwd:ro" ++
    configVolume provider "/generated/passwd-php:/etc/dovecot/passwd-php:ro" ++
    configVolume provider "/custom/dovecot/:/etc/dovecot/custom/:ro" ++ configVolume provider "/state/:/var/mail/:rw" ++
    sslVolume provider ++
    textOf ["    depends_on:", "      - redis", "  rspamd:", "    image: ghcr.io/containercp/mail-rspamd:latest",
      "    container_name: containercp-mail-rspamd", "    restart: unless-stopped", "    networks:",
      "      - containercp-mail", "    volumes:"] ++
    configVolume provider "/generated/rspamd/dkim_signing.conf:/etc/rspamd/local.d/dkim_signing.conf:ro" ++
    configVolume provider "/generated/rspamd/worker-normal.inc:/etc/rspamd/local.d/worker-normal.inc:ro" ++
    configVolume provider "/generated/rspamd/worker-proxy.inc:/etc/rspamd/local.d/worker-proxy.inc:ro" ++
    configVolume provider "/generated/rspamd/logging.inc:/etc/rspamd/local.d/logging.inc:ro" ++
    configVolume provider "/state/dkim/:/etc/rspamd/keys/:ro" ++
    textOf ["  redis:", "    image: redis:7-alpine", "    container_name: containercp-mail-redis",
      "    restart: unless-stopped", "    networks:", "      - containercp-mail", "    volumes:",
      "      - redis-data:/data", "  snappymail:", "    image: ghcr.io/containercp/mail-snappymail:latest",
      "    container_name: containercp-mail-snappymail", "    restart: unless-stopped", "    networks:",
      "      - containercp-mail", "    volumes:", "      - snappymail-data:/var/www/snappymail/data", "    depends_on:",
      "      - dovecot", "      - postfix", "      - redis", "networks:", "  containercp-mail:", "    external: true",
      "volumes:", "  redis-data:", "  snappymail-data:"]

/-! ## Writes -/

section Writes

variable (provider : Provider) (calls : ApplyCalls) (domains : List MailDomain) (mailboxes : List Mailbox)
  (aliases : List MailAlias)

/-- A stream can be opened on a file that is none yet, or a regular one. -/
def ApplyCalls.canOpen (file : MailFile) (node : Option Node) : Bool := calls.opens file && node ≠ some .special

/-- A file that is written, or ends the run. -/
def writeFile (file : MailFile) (content : Bytes) : Action where
  file := file
  fails node := !calls.canOpen file node
  effect _ := some (.regular content)

/-- A file that is created where there is no regular one; nobody looks whether that works. -/
def ensureFile (file : MailFile) (header : Bytes) : Action where
  file := file
  fails _ := false
  effect
    | some (.regular content) => some (.regular content)
    | some .special => if calls.removes file then if calls.opens file then some (.regular header) else none else some .special
    | none => if calls.opens file then some (.regular header) else none

/-- `write_docker_compose`, as `apply_config` calls it: its result is not looked at. -/
def writeDockerCompose : Action where
  file := .compose
  fails _ := false
  effect node := if calls.canOpen .compose node then some (.regular (composeText provider)) else node

def writePostfixConfig : List Action :=
  [writeFile calls .postfixMain (postfixMainText provider domains),
    writeFile calls .virtualMailboxes (virtualMailboxesText domains mailboxes),
    writeFile calls .virtualAliases (virtualAliasesText domains aliases),
    writeFile calls .saslPasswd (saslPasswdText provider), writeFile calls .postfixResolv postfixResolvText]

def writeDovecotConfig : List Action :=
  [writeFile calls .dovecotConf dovecotText, writeFile calls .passwd (passwdText domains mailboxes)]

def writeTransportMaps : List Action := [writeFile calls .transportMaps (transportMapsText domains mailboxes)]

def writeRspamdConfig : List Action :=
  [writeFile calls .dkimSigning (dkimSigningText calls.subnet calls.hasKey domains),
    writeFile calls .rspamdLogging rspamdLoggingText, writeFile calls .rspamdWorkerProxy rspamdWorkerProxyText,
    writeFile calls .rspamdWorkerNormal rspamdWorkerNormalText]

def writeConfigs : List Action :=
  writePostfixConfig provider calls domains mailboxes aliases ++ writeDovecotConfig calls domains mailboxes ++
    [ensureFile calls .passwdPhp phpCredentialsHeader, ensureFile calls .senderLogin senderLoginHeader] ++
    writeTransportMaps calls domains mailboxes ++ writeRspamdConfig calls domains

/-! ## Apply -/

structure ApplyResult where
  success : Bool := false
  message : Bytes := []
  failedStage : Bytes := []
  deriving DecidableEq

/-- The files that the backup is made of. -/
def backupFiles : List MailFile :=
  [.postfixMain, .dovecotConf, .transportMaps, .virtualMailboxes, .passwd, .virtualAliases, .dkimSigning,
    .rspamdWorkerProxy, .rspamdLogging]

/-- `read_file`: what cannot be read counts as empty. -/
def readFile : Option Node → Bytes
  | some (.regular content) => content
  | _ => []

/-- `backup_if_exists`, for all of them: the ones that are not empty. -/
def backupOf (files : MailFiles) : List (MailFile × Bytes) :=
  (backupFiles.map fun file => (file, readFile (files file))).filter fun entry => entry.2 ≠ []

/-- `restore`. -/
def restore (backup : List (MailFile × Bytes)) (files : MailFiles) : MailFiles :=
  backup.foldl (fun files entry =>
    if calls.reopens entry.1 then Function.update files entry.1 (some (.regular entry.2)) else files) files

/-- The address that the alias map is asked for. -/
def aliasProbe : Option Bytes :=
  ((aliases.filter MailAlias.enabled).find? fun a => domainNameOf domains a.domainId ≠ []).bind fun a =>
    if a.sourceLocalPart = [] then none else some (a.sourceLocalPart ++ atSign ++ domainNameOf domains a.domainId)

/-- The checks and reloads behind the new files: the message and the stage of the first that
fails. -/
def rejection : Option (Bytes × Bytes) :=
  if calls.postfixCheck.exitCode ≠ 0 then
    some (bytes "Postfix config validation failed: " ++ calls.postfixCheck.err, bytes "validate")
  else if calls.rspamdCheck.exitCode ≠ 0 then
    some (bytes "Rspamd config validation failed: " ++ calls.rspamdCheck.out ++ calls.rspamdCheck.err, bytes "rspamd_validate")
  else
    match (aliasProbe domains aliases).filter fun _ => calls.aliasCheck.exitCode ≠ 0 with
    | some probe =>
        some (bytes "Alias lookup validation failed for " ++ probe ++ bytes ": " ++ calls.aliasCheck.err, bytes "validate")
    | none =>
        if calls.reload.exitCode ≠ 0 then some (bytes "Failed to reload Postfix: " ++ calls.reload.err, bytes "reload")
        else if calls.rspamdReload.exitCode ≠ 0 && calls.rspamdRestart.exitCode ≠ 0 then
          some (bytes "Rspamd reload failed. Reload error: " ++ calls.rspamdReload.err ++ bytes "; restart error: " ++
            calls.rspamdRestart.err, bytes "rspamd_reload")
        else if !(List.range 10).any calls.ready then
          some (bytes "Rspamd did not become ready after configuration reload", bytes "rspamd_health")
        else none

/-- All that an apply writes, in its order. -/
def applyActions : List Action := writeDockerCompose provider calls :: writeConfigs provider calls domains mailboxes aliases

def applyConfig (files : MailFiles) : ApplyResult × MailFiles :=
  let backup := backupOf files
  let (failed, written) := FileAction.run (applyActions provider calls domains mailboxes aliases) files
  match failed with
  | some file => (⟨false, bytes "Failed to write " ++ file.path provider, bytes "generate"⟩, written)
  | none =>
      match rejection calls domains aliases with
      | some (message, stage) => (⟨false, message, stage⟩, restore calls backup written)
      | none => (⟨true, bytes "Configuration applied and validated (Postfix + Rspamd)", []⟩, written)

end Writes

/-- Each action has a file of its own. -/
theorem nodup_applyActions (provider : Provider) (calls : ApplyCalls) (domains : List MailDomain) (mailboxes : List Mailbox)
    (aliases : List MailAlias) : ((applyActions provider calls domains mailboxes aliases).map FileAction.file).Nodup := by
  have hFiles : (applyActions provider calls domains mailboxes aliases).map FileAction.file =
      [.compose, .postfixMain, .virtualMailboxes, .virtualAliases, .saslPasswd, .postfixResolv, .dovecotConf, .passwd,
        .passwdPhp, .senderLogin, .transportMaps, .dkimSigning, .rspamdLogging, .rspamdWorkerProxy,
        .rspamdWorkerNormal] := rfl
  rw [hFiles]
  decide

end ContainerCP.Mail
