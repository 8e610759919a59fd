import ContainerCP.Text.Decimal

/-! The records that `Storage` keeps, with the defaults of the C++ structures,
and the enumerations in them with their texts. -/
namespace ContainerCP.Storage

inductive MailDomainMode where
  | disabled
  | localPrimary
  | externalRelay
  | splitM365
  deriving DecidableEq

/-- `mail_domain_mode_to_string`. -/
def MailDomainMode.toText : MailDomainMode → Bytes
  | disabled => bytes "disabled"
  | localPrimary => bytes "local-primary"
  | externalRelay => bytes "external-relay"
  | splitM365 => bytes "split-m365"

/-- `mail_domain_mode_from_string`: an unknown text is `Disabled`. -/
def MailDomainMode.ofText (text : Bytes) : MailDomainMode :=
  if text = bytes "local-primary" then localPrimary
  else if text = bytes "external-relay" then externalRelay
  else if text = bytes "split-m365" then splitM365
  else disabled

@[simp, grind =]
theorem MailDomainMode.ofText_toText (mode : MailDomainMode) : ofText mode.toText = mode := by
  cases mode <;> decide

inductive Permission where
  | readOnly
  | readWrite
  | deploy
  deriving DecidableEq

/-- `permission_to_string`. -/
def Permission.toText : Permission → Bytes
  | readOnly => bytes "read_only"
  | readWrite => bytes "read_write"
  | deploy => bytes "deploy"

/-- `permission_from_string`: an unknown text is `READ_ONLY`. -/
def Permission.ofText (text : Bytes) : Permission :=
  if text = bytes "read_write" then readWrite
  else if text = bytes "deploy" then deploy
  else readOnly

@[simp, grind =]
theorem Permission.ofText_toText (permission : Permission) : ofText permission.toText = permission := by
  cases permission <;> decide

inductive ProfileType where
  | webServer
  | php
  | docker
  | ssl
  | backup
  | mail
  | dns
  deriving DecidableEq

/-- `profile_type_to_string`. -/
def ProfileType.toText : ProfileType → Bytes
  | webServer => bytes "web_server"
  | php => bytes "php"
  | docker => bytes "docker"
  | ssl => bytes "ssl"
  | backup => bytes "backup"
  | mail => bytes "mail"
  | dns => bytes "dns"

/-- `profile_type_from_string`: an unknown text is `WEB_SERVER`. -/
def ProfileType.ofText (text : Bytes) : ProfileType :=
  if text = bytes "php" then php
  else if text = bytes "docker" then docker
  else if text = bytes "ssl" then ssl
  else if text = bytes "backup" then backup
  else if text = bytes "mail" then mail
  else if text = bytes "dns" then dns
  else webServer

@[simp, grind =]
theorem ProfileType.ofText_toText (type : ProfileType) : ofText type.toText = type := by
  cases type <;> decide

structure Node where
  id : UInt64 := 0
  name : Bytes := []
  type : Bytes := []
  deriving DecidableEq

structure PhpVersion where
  id : UInt64 := 0
  name : Bytes := []
  version : Bytes := []
  image : Bytes := []
  enabled : Bool := true
  defaultVersion : Bool := false
  deriving DecidableEq

structure Profile where
  id : UInt64 := 0
  name : Bytes := []
  profileName : Bytes := []
  type : ProfileType := .webServer
  webServer : Bytes := []
  runtime : Bytes := bytes "docker"
  templatePath : Bytes := []
  description : Bytes := []
  enabled : Bool := true
  defaultProfile : Bool := false
  deriving DecidableEq

structure User where
  id : UInt64 := 0
  name : Bytes := []
  username : Bytes := []
  uid : UInt64 := 0
  homeDirectory : Bytes := []
  shell : Bytes := []
  enabled : Bool := true
  deriving DecidableEq

/-- The credentials and the two transient fields of a site are in no file and in
no table. -/
structure Site where
  id : UInt64 := 0
  name : Bytes := []
  domain : Bytes := []
  owner : Bytes := []
  nodeId : UInt64 := 0
  dbName : Bytes := []
  dbUser : Bytes := []
  dbPassword : Bytes := []
  webServer : Bytes := bytes "apache"
  webTemplateProfile : Bytes := []
  templateProfile : Bytes := []
  phpMailEnabled : Bool := false
  phpMailEnabledPresent : Bool := false
  deriving DecidableEq

structure Domain where
  id : UInt64 := 0
  name : Bytes := []
  fqdn : Bytes := []
  ownerId : UInt64 := 0
  siteId : UInt64 := 0
  phpVersion : Bytes := bytes "8.4"
  sslEnabled : Bool := false
  enabled : Bool := true
  type : Bytes := bytes "primary"
  target : Bytes := []
  deriving DecidableEq

structure Database where
  id : UInt64 := 0
  name : Bytes := []
  dbName : Bytes := []
  dbUser : Bytes := []
  dbPassword : Bytes := []
  engine : Bytes := bytes "mariadb"
  version : Bytes := bytes "lts"
  ownerId : UInt64 := 0
  siteId : UInt64 := 0
  enabled : Bool := true
  deriving DecidableEq

structure Backup where
  id : UInt64 := 0
  name : Bytes := []
  siteId : UInt64 := 0
  ownerId : UInt64 := 0
  filename : Bytes := []
  type : Bytes := bytes "manual"
  size : UInt64 := 0
  createdAt : Bytes := []
  status : Bytes := bytes "completed"
  filePath : Bytes := []
  compression : Bytes := bytes "gzip"
  manifestVersion : Bytes := bytes "legacy_unknown"
  backupCompleteness : Bytes := bytes "legacy_unknown"
  containsDatabase : Bool := false
  databaseStatus : Bytes := bytes "legacy_unknown"
  databaseEngine : Bytes := []
  databaseName : Bytes := []
  databaseDumpSize : UInt64 := 0
  databaseDumpChecksum : Bytes := []
  restoreCapability : Bytes := bytes "files_only"
  warningCodes : Bytes := []
  deriving DecidableEq

structure ReverseProxy where
  id : UInt64 := 0
  name : Bytes := []
  domain : Bytes := []
  siteId : UInt64 := 0
  provider : Bytes := bytes "nginx"
  configPath : Bytes := []
  upstream : Bytes := []
  enabled : Bool := true
  status : Bytes := bytes "active"
  deriving DecidableEq

structure AccessUser where
  id : UInt64 := 0
  name : Bytes := []
  username : Bytes := []
  authType : Bytes := bytes "password"
  passwordHash : Bytes := []
  enabled : Bool := true
  deriving DecidableEq

structure AccessGrant where
  id : UInt64 := 0
  name : Bytes := []
  accessUserId : UInt64 := 0
  siteId : UInt64 := 0
  permission : Permission := .readWrite
  deriving DecidableEq

structure AccessKey where
  id : UInt64 := 0
  accessUserId : UInt64 := 0
  keyType : Bytes := []
  keyData : Bytes := []
  keyComment : Bytes := []
  fingerprint : Bytes := []
  enabled : Bool := true
  createdAt : Bytes := []
  updatedAt : Bytes := []
  deriving DecidableEq

structure AuthUser where
  id : UInt64 := 0
  name : Bytes := []
  username : Bytes := []
  passwordHash : Bytes := []
  mustChangePassword : Bool := false
  enabled : Bool := true
  role : Bytes := bytes "admin"
  deriving DecidableEq

structure SslCertificate where
  id : UInt64 := 0
  name : Bytes := []
  domainId : UInt64 := 0
  domain : Bytes := []
  provider : Bytes := bytes "placeholder"
  certificatePath : Bytes := []
  keyPath : Bytes := []
  chainPath : Bytes := []
  issuedAt : Bytes := []
  expiresAt : Bytes := []
  renewAfter : Bytes := []
  status : Bytes := bytes "http_only"
  autoRenew : Bool := true
  httpsEnabled : Bool := false
  redirectEnabled : Bool := false
  domains : Bytes := []
  challengeType : Bytes := []
  lastError : Bytes := []
  lastValidation : Bytes := []
  renewAttempts : Int32 := 0
  version : Int32 := 1
  deriving DecidableEq

structure MailDomain where
  id : UInt64 := 0
  name : Bytes := []
  domainId : UInt64 := 0
  siteId : UInt64 := 0
  domainName : Bytes := []
  mode : MailDomainMode := .disabled
  relayHost : Bytes := []
  dkimSelector : Bytes := bytes "dkim"
  dkimPrivateKeyPath : Bytes := []
  dkimPublicKeyDns : Bytes := []
  maxMailboxes : UInt64 := 0
  maxAliases : UInt64 := 0
  catchAll : Bytes := []
  enabled : Bool := true
  createdAt : Bytes := []
  updatedAt : Bytes := []
  deriving DecidableEq

structure Mailbox where
  id : UInt64 := 0
  name : Bytes := []
  domainId : UInt64 := 0
  localPart : Bytes := []
  passwordHash : Bytes := []
  quotaBytes : UInt64 := 0
  quotaMessages : UInt64 := 0
  enabled : Bool := true
  displayName : Bytes := []
  forwardTo : Bytes := []
  spamEnabled : Bool := true
  lastLogin : Bytes := []
  createdAt : Bytes := []
  updatedAt : Bytes := []
  deriving DecidableEq

structure MailAlias where
  id : UInt64 := 0
  name : Bytes := []
  domainId : UInt64 := 0
  sourceLocalPart : Bytes := []
  destination : Bytes := []
  enabled : Bool := true
  createdAt : Bytes := []
  updatedAt : Bytes := []
  deriving DecidableEq

/-- The kinds of records, in the order in which they are imported; the access
keys, which have no legacy file, come last. -/
inductive Resource where
  | nodes
  | phpVersions
  | profiles
  | users
  | sites
  | domains
  | databases
  | backups
  | reverseProxies
  | accessUsers
  | accessGrants
  | authUsers
  | sslCertificates
  | mailDomains
  | mailMailboxes
  | mailAliases
  | accessKeys
  deriving DecidableEq

abbrev Resource.Record : Resource → Type
  | nodes => Node
  | phpVersions => PhpVersion
  | profiles => Profile
  | users => User
  | sites => Site
  | domains => Domain
  | databases => Database
  | backups => Backup
  | reverseProxies => ReverseProxy
  | accessUsers => AccessUser
  | accessGrants => AccessGrant
  | authUsers => AuthUser
  | sslCertificates => SslCertificate
  | mailDomains => MailDomain
  | mailMailboxes => Mailbox
  | mailAliases => MailAlias
  | accessKeys => AccessKey

def Resource.recordId : (resource : Resource) → resource.Record → UInt64
  | nodes => Node.id
  | phpVersions => PhpVersion.id
  | profiles => Profile.id
  | users => User.id
  | sites => Site.id
  | domains => Domain.id
  | databases => Database.id
  | backups => Backup.id
  | reverseProxies => ReverseProxy.id
  | accessUsers => AccessUser.id
  | accessGrants => AccessGrant.id
  | authUsers => AuthUser.id
  | sslCertificates => SslCertificate.id
  | mailDomains => MailDomain.id
  | mailMailboxes => Mailbox.id
  | mailAliases => MailAlias.id
  | accessKeys => AccessKey.id

/-- The record of a default-initialised C++ structure. -/
def Resource.blank : (resource : Resource) → resource.Record
  | nodes => ({} : Node)
  | phpVersions => ({} : PhpVersion)
  | profiles => ({} : Profile)
  | users => ({} : User)
  | sites => ({} : Site)
  | domains => ({} : Domain)
  | databases => ({} : Database)
  | backups => ({} : Backup)
  | reverseProxies => ({} : ReverseProxy)
  | accessUsers => ({} : AccessUser)
  | accessGrants => ({} : AccessGrant)
  | authUsers => ({} : AuthUser)
  | sslCertificates => ({} : SslCertificate)
  | mailDomains => ({} : MailDomain)
  | mailMailboxes => ({} : Mailbox)
  | mailAliases => ({} : MailAlias)
  | accessKeys => ({} : AccessKey)

/-- The name that every load derives from the other fields. A node keeps its
own, and an access key has none. -/
def Resource.named : (resource : Resource) → resource.Record → resource.Record
  | nodes, r => r
  | phpVersions, r => { r with name := r.version }
  | profiles, r => { r with name := r.profileName }
  | users, r => { r with name := r.username }
  | sites, r => { r with name := r.domain }
  | domains, r => { r with name := r.fqdn }
  | databases, r => { r with name := r.dbName }
  | backups, r => { r with name := r.filename }
  | reverseProxies, r => { r with name := r.domain }
  | accessUsers, r => { r with name := r.username }
  | accessGrants, r =>
      { r with name := decimal r.accessUserId.toNat ++ bytes "-" ++ decimal r.siteId.toNat }
  | authUsers, r => { r with name := r.username }
  | sslCertificates, r => { r with name := r.domain }
  | mailDomains, r => { r with name := r.domainName }
  | mailMailboxes, r => { r with name := r.localPart }
  | mailAliases, r => { r with name := r.sourceLocalPart }
  | accessKeys, r => r

end ContainerCP.Storage
