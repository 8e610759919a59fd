import ContainerCP.Storage.Fields
import ContainerCP.Text.Lines

/-! The text backend of `Storage`: one file for each kind of record and one line
for each record, its fields between bars. -/
namespace ContainerCP.Storage

namespace Field

variable {R : Type}

/-- The field as the saves write it. -/
def print : Field R → R → Bytes
  | uint64 get _, r => decimal (get r).toNat
  | uint64OrZero get _, r => decimal (get r).toNat
  | int get _, r => decimalInt (get r).toInt
  | bool get _, r => if get r then bytes "1" else bytes "0"
  | text get _, r => get r
  | nullableText get _, r => get r
  | choice _ get _, r => get r

/-- The field as the loads read it. Nothing stands for the exception of
`std::stoull` and `std::stoi`. -/
def scan : Field R → Bytes → R → Option R
  | uint64 _ set, token, r => (stoull token).map fun v => set v r
  | uint64OrZero _ set, token, r =>
      if token = [] then some (set 0 r) else (stoull token).map fun v => set v r
  | int _ set, token, r => (stoi token).map fun v => set v r
  | bool _ set, token, r => some (set (token = bytes "1") r)
  | text _ set, token, r => some (set token r)
  | nullableText _ set, token, r => some (set token r)
  | choice _ _ set, token, r => some (set token r)

/-- `web_server`, where an empty text is read as "apache". -/
abbrev siteWebServerOrApache : Field Site :=
  .text (·.webServer) fun v r => { r with webServer := if v = [] then bytes "apache" else v }

/-- Numbers that are read as zero where the text is empty. -/
abbrev mailDomainDomainIdOrZero : Field MailDomain := .uint64OrZero (·.domainId) fun v r => { r with domainId := v }
abbrev mailDomainSiteIdOrZero : Field MailDomain := .uint64OrZero (·.siteId) fun v r => { r with siteId := v }
abbrev mailDomainMaxMailboxesOrZero : Field MailDomain :=
  .uint64OrZero (·.maxMailboxes) fun v r => { r with maxMailboxes := v }
abbrev mailDomainMaxAliasesOrZero : Field MailDomain :=
  .uint64OrZero (·.maxAliases) fun v r => { r with maxAliases := v }
abbrev mailboxQuotaBytesOrZero : Field Mailbox := .uint64OrZero (·.quotaBytes) fun v r => { r with quotaBytes := v }
abbrev mailboxQuotaMessagesOrZero : Field Mailbox :=
  .uint64OrZero (·.quotaMessages) fun v r => { r with quotaMessages := v }

end Field

/-- The tokens of a line are read into the fields one by one. A field without a
token keeps its default, and tokens behind the last field are ignored. -/
def scanFields {R : Type} : List (Field R) → List Bytes → R → Option R
  | field :: fields, token :: tokens, r => (field.scan token r).bind (scanFields fields tokens)
  | _, _, r => some r

namespace Resource

/-- The fields of a line in the order in which they are saved. -/
def lineFields : (resource : Resource) → List (Field resource.Record)
  | nodes => [.nodeId, .nodeName, .nodeType]
  | phpVersions => [.phpId, .phpVersion, .phpImage, .phpEnabled, .phpDefaultVersion]
  | profiles => [.profileId, .profileProfileName, .profileType, .profileWebServer, .profileRuntime,
      .profileTemplatePath, .profileDescription, .profileEnabled, .profileDefaultProfile]
  | users => [.userId, .userUsername, .userUid, .userHomeDirectory, .userShell, .userEnabled]
  | sites => [.siteId, .siteDomain, .siteOwner, .siteNodeId, .siteWebServerOrApache, .sitePhpMailEnabled,
      .siteWebTemplateProfile]
  | domains => [.domainId, .domainFqdn, .domainOwnerId, .domainSiteId, .domainPhpVersion,
      .domainSslEnabled, .domainEnabled]
  | databases => [.databaseId, .databaseDbName, .databaseDbUser, .databaseDbPassword, .databaseEngine,
      .databaseVersion, .databaseOwnerId, .databaseSiteId, .databaseEnabled]
  | backups => [.backupId, .backupSiteId, .backupOwnerId, .backupFilename, .backupType, .backupSize,
      .backupCreatedAt, .backupStatus, .backupFilePath, .backupCompression]
  | reverseProxies => [.proxyId, .proxyDomain, .proxySiteId, .proxyProvider, .proxyConfigPath,
      .proxyUpstream, .proxyEnabled, .proxyStatus]
  | accessUsers => [.accessUserId, .accessUserUsername, .accessUserAuthType, .accessUserPasswordHash,
      .accessUserEnabled]
  | accessGrants => [.grantId, .grantAccessUserId, .grantSiteId, .grantPermission]
  | authUsers => [.authUserId, .authUserUsername, .authUserPasswordHash, .authUserMustChangePassword,
      .authUserEnabled, .authUserRole]
  | sslCertificates => [.sslId, .sslDomainId, .sslDomain, .sslProvider, .sslCertificatePath, .sslKeyPath,
      .sslChainPath, .sslIssuedAt, .sslExpiresAt, .sslRenewAfter, .sslStatus, .sslAutoRenew,
      .sslHttpsEnabled, .sslRedirectEnabled, .sslDomains, .sslChallengeType, .sslLastError,
      .sslLastValidation, .sslRenewAttempts, .sslVersion]
  | mailDomains => [.mailDomainId, .mailDomainMode, .mailDomainDomainName, .mailDomainDomainIdOrZero,
      .mailDomainSiteIdOrZero, .mailDomainEnabled, .mailDomainCatchAll, .mailDomainDkimSelector,
      .mailDomainDkimPublicKeyDns, .mailDomainRelayHost, .mailDomainMaxMailboxesOrZero,
      .mailDomainMaxAliasesOrZero]
  | mailMailboxes => [.mailboxId, .mailboxDomainId, .mailboxLocalPart, .mailboxPasswordHash,
      .mailboxQuotaBytesOrZero, .mailboxQuotaMessagesOrZero, .mailboxEnabled, .mailboxDisplayName,
      .mailboxForwardTo, .mailboxSpamEnabled, .mailboxLastLogin, .mailboxCreatedAt, .mailboxUpdatedAt]
  | mailAliases => [.aliasId, .aliasDomainId, .aliasSourceLocalPart, .aliasDestination, .aliasEnabled,
      .aliasCreatedAt, .aliasUpdatedAt]
  | accessKeys => []

/-- The line of a certificate from before the extended format. -/
def oldSslFields : List (Field SslCertificate) :=
  [.sslId, .sslDomainId, .sslDomain, .sslProvider, .sslCertificatePath, .sslKeyPath, .sslExpiresAt,
    .sslStatus, .sslHttpsEnabled, .sslAutoRenew]

/-- The line of a mail domain from before the site: the owner is read as the
domain. -/
def oldMailDomainFields : List (Field MailDomain) :=
  [.mailDomainId, .mailDomainMode, .mailDomainDomainName, .mailDomainDomainIdOrZero, .mailDomainEnabled,
    .mailDomainCatchAll, .mailDomainDkimSelector, .mailDomainRelayHost, .mailDomainMaxMailboxesOrZero,
    .mailDomainMaxAliasesOrZero]

/-- `load_ssl_certificates` on one line. At least ten tokens behind the first six
are the extended format; an old line has the version zero. -/
def loadSslLine (line : Bytes) : Option SslCertificate :=
  let tokens := getlines pipe line
  if 10 ≤ (tokens.drop 6).length then
    (scanFields (lineFields .sslCertificates) tokens {}).map (named .sslCertificates)
  else
    (scanFields oldSslFields tokens {}).map fun c => named .sslCertificates { c with version := 0 }

/-- `load_mail_domains` on one line. -/
def loadMailDomainLine (line : Bytes) : Option MailDomain :=
  let fields := if line.count pipe ≤ 9 then oldMailDomainFields else lineFields .mailDomains
  (scanFields fields (getlines pipe line) {}).map (named .mailDomains)

/-- `load_sites` on one line. -/
def loadSiteLine (line : Bytes) : Option Site :=
  (scanFields (lineFields .sites) (getlines pipe line) {}).map fun s =>
    named .sites { s with phpMailEnabledPresent := 5 ≤ line.count pipe }

/-- The loads on one line. -/
def loadLine : (resource : Resource) → Bytes → Option resource.Record
  | sslCertificates, line => loadSslLine line
  | mailDomains, line => loadMailDomainLine line
  | sites, line => loadSiteLine line
  | resource, line =>
      (scanFields resource.lineFields (getlines pipe line) resource.blank).map resource.named

/-- The lines of a file, without the empty ones. -/
def dataLines (content : Bytes) : List Bytes := (getlines newline content).filter (· ≠ [])

def printLine (resource : Resource) (record : resource.Record) : Bytes :=
  [pipe].intercalate (resource.lineFields.map (·.print record))

end Resource

/-- The files in the data directory, by the kind of their records. -/
abbrev TxtFiles := Resource → Option Bytes

/-- The `save_` functions with the text backend: the file is written anew. The
access keys are not saved at all. -/
def saveTxt : (resource : Resource) → List resource.Record → TxtFiles → TxtFiles
  | .accessKeys, _, files => files
  | resource, records, files =>
      Function.update files resource (some (records.flatMap fun record => resource.printLine record ++ [newline]))

/-- The `load_` functions with the text backend. Without a file there are no
records, and the access keys are not loaded at all. -/
def loadTxt : (resource : Resource) → TxtFiles → Option (List resource.Record)
  | .accessKeys, _ => some []
  | resource, files =>
      match files resource with
      | none => some []
      | some content => (Resource.dataLines content).mapM resource.loadLine

end ContainerCP.Storage
