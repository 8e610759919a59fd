import ContainerCP.Text.Decimal
import ContainerCP.Storage.Records

/-! The values of a SQLite row, and what the column functions of the C interface
answer for them. -/
namespace ContainerCP.Sql

/-- A stored value. A real number or a blob is kept as what the two column
functions make of it. -/
inductive Cell where
  | null
  | integer (value : Int64)
  | text (value : Bytes)
  | other (asInteger : Int64) (asText : Bytes)
  deriving DecidableEq

namespace Cell

/-- A text as an integer: the longest numeral in front, cut off at the ends of
the range, and zero where there is none. -/
def integerOfText (text : Bytes) : Int64 :=
  match scanNumeral text with
  | none => 0
  | some numeral =>
      Int64.ofInt (max Int64.minValue.toInt (min numeral.value Int64.maxValue.toInt))

/-- `sqlite3_column_int64`. -/
def columnInt : Cell → Int64
  | null => 0
  | integer value => value
  | text value => integerOfText value
  | other asInteger _ => asInteger

/-- `sqlite3_column_text` with `sqlite3_column_bytes`. -/
def columnText : Cell → Bytes
  | null => []
  | integer value => decimalInt value.toInt
  | text value => value
  | other _ asText => asText

/-- `sqlite3_column_type` is `SQLITE_NULL`. -/
def isNull (cell : Cell) : Bool := cell = null

end Cell

end ContainerCP.Sql

/-! The fields of the records and the ways in which the code writes and reads one
field: as a column of a table, with or without checks, and in the canonical
encoding. Every table and every line format is a list of fields. -/
namespace ContainerCP.Storage

open Sql (Cell)

/-- A field by its C++ type, with the accesses to it. An enumeration is a field
of text that is one of its texts. -/
inductive Field (R : Type) where
  | uint64 (get : R → UInt64) (set : UInt64 → R → R)
  | uint64OrZero (get : R → UInt64) (set : UInt64 → R → R)
  | int (get : R → Int32) (set : Int32 → R → R)
  | bool (get : R → Bool) (set : Bool → R → R)
  | text (get : R → Bytes) (set : Bytes → R → R)
  | nullableText (get : R → Bytes) (set : Bytes → R → R)
  | choice (valid : Bytes → Bool) (get : R → Bytes) (set : Bytes → R → R)

namespace Field

variable {R : Type}

/-- Take the field over from another record. -/
def copy : Field R → R → R → R
  | uint64 get set, source => set (get source)
  | uint64OrZero get set, source => set (get source)
  | int get set, source => set (get source)
  | bool get set, source => set (get source)
  | text get set, source => set (get source)
  | nullableText get set, source => set (get source)
  | choice _ get set, source => set (get source)

/-- The value that `bind_int` or `bind_text` gives to the column. -/
def bind : Field R → R → Cell
  | uint64 get _, r => .integer (get r).toInt64
  | uint64OrZero get _, r => .integer (get r).toInt64
  | int get _, r => .integer (get r).toInt64
  | bool get _, r => .integer (if get r then 1 else 0)
  | text get _, r => .text (get r)
  | nullableText get _, r => .text (get r)
  | choice _ get _, r => .text (get r)

/-- The loads of `SQLiteStorage` and the `rd_` functions of `Verification`: the
column, cast to the type of the field. -/
def load : Field R → Cell → R → R
  | uint64 _ set, cell => set cell.columnInt.toUInt64
  | uint64OrZero _ set, cell => set cell.columnInt.toUInt64
  | int _ set, cell => set cell.columnInt.toInt32
  | bool _ set, cell => set (cell.columnInt ≠ 0)
  | text _ set, cell => set cell.columnText
  | nullableText _ set, cell => set cell.columnText
  | choice _ _ set, cell => set cell.columnText

/-- `read_uint64_col`. -/
def readUint64Col (cell : Cell) : Option UInt64 :=
  if cell.isNull ∨ cell.columnInt < 0 then none else some cell.columnInt.toUInt64

/-- `read_int_col`. -/
def readIntCol (cell : Cell) : Option Int32 :=
  if cell.isNull ∨ cell.columnInt < Int32.minValue.toInt64 ∨ Int32.maxValue.toInt64 < cell.columnInt then none
  else some cell.columnInt.toInt32

/-- `read_bool_col`. -/
def readBoolCol (cell : Cell) : Option Bool :=
  if cell.isNull then none
  else if cell.columnInt = 0 then some false
  else if cell.columnInt = 1 then some true
  else none

/-- `read_string_col`. -/
def readStringCol (allowNull : Bool) (cell : Cell) : Option Bytes :=
  if cell.isNull ∧ ¬allowNull then none else some cell.columnText

/-- The row readers of `SQLiteSnapshotReader`: a value that the field cannot
have is an error. -/
def loadChecked : Field R → Cell → R → Option R
  | uint64 _ set, cell, r => (readUint64Col cell).map fun v => set v r
  | uint64OrZero _ set, cell, r => (readUint64Col cell).map fun v => set v r
  | int _ set, cell, r => (readIntCol cell).map fun v => set v r
  | bool _ set, cell, r => (readBoolCol cell).map fun v => set v r
  | text _ set, cell, r => (readStringCol false cell).map fun v => set v r
  | nullableText _ set, cell, r => (readStringCol true cell).map fun v => set v r
  | choice valid _ set, cell, r => if valid cell.columnText then some (set cell.columnText r) else none

/-- The text that the canonical encoding frames. -/
def canonical : Field R → R → Bytes
  | uint64 get _, r => decimal (get r).toNat
  | uint64OrZero get _, r => decimal (get r).toNat
  | int get _, r => decimal (get r).toInt64.toUInt64.toNat
  | bool get _, r => if get r then bytes "true" else bytes "false"
  | text get _, r => get r
  | nullableText get _, r => get r
  | choice _ get _, r => get r

/-- What is bound is what is loaded: the casts between the signed and the
unsigned numbers lose nothing. -/
theorem load_bind (field : Field R) (source r : R) : field.load (field.bind source) r = field.copy source r := by
  cases field with
  | uint64 get set => simp [load, bind, copy, Cell.columnInt]
  | uint64OrZero get set => simp [load, bind, copy, Cell.columnInt]
  | int get set => simp [load, bind, copy, Cell.columnInt]
  | bool get set => cases hValue : get source <;> simp [load, bind, copy, Cell.columnInt, hValue]
  | text get set => rfl
  | nullableText get set => rfl
  | choice valid get set => rfl

end Field

/-- Take fields over from another record. -/
def copyFields {R : Type} (fields : List (Field R)) (source r : R) : R :=
  fields.foldl (fun r field => field.copy source r) r

namespace Field

/-- `valid_profile_type`. -/
def validProfileType (text : Bytes) : Bool :=
  text ∈ [bytes "web_server", bytes "php", bytes "docker", bytes "ssl", bytes "backup", bytes "mail", bytes "dns"]

/-- `valid_permission`. -/
def validPermission (text : Bytes) : Bool :=
  text ∈ [bytes "read_only", bytes "read_write", bytes "deploy"]

/-- `valid_mail_mode`. -/
def validMailMode (text : Bytes) : Bool :=
  text ∈ [bytes "disabled", bytes "local-primary", bytes "external-relay", bytes "split-m365"]

abbrev nodeId : Field Node := .uint64 (·.id) fun v r => { r with id := v }
abbrev nodeName : Field Node := .text (·.name) fun v r => { r with name := v }
abbrev nodeType : Field Node := .text (·.type) fun v r => { r with type := v }

abbrev phpId : Field PhpVersion := .uint64 (·.id) fun v r => { r with id := v }
abbrev phpVersion : Field PhpVersion := .text (·.version) fun v r => { r with version := v }
abbrev phpImage : Field PhpVersion := .text (·.image) fun v r => { r with image := v }
abbrev phpEnabled : Field PhpVersion := .bool (·.enabled) fun v r => { r with enabled := v }
abbrev phpDefaultVersion : Field PhpVersion := .bool (·.defaultVersion) fun v r => { r with defaultVersion := v }

abbrev profileId : Field Profile := .uint64 (·.id) fun v r => { r with id := v }
abbrev profileProfileName : Field Profile := .text (·.profileName) fun v r => { r with profileName := v }
abbrev profileType : Field Profile :=
  .choice validProfileType (·.type.toText) fun text r => { r with type := .ofText text }
abbrev profileWebServer : Field Profile := .text (·.webServer) fun v r => { r with webServer := v }
abbrev profileRuntime : Field Profile := .text (·.runtime) fun v r => { r with runtime := v }
abbrev profileTemplatePath : Field Profile := .text (·.templatePath) fun v r => { r with templatePath := v }
abbrev profileDescription : Field Profile := .text (·.description) fun v r => { r with description := v }
abbrev profileEnabled : Field Profile := .bool (·.enabled) fun v r => { r with enabled := v }
abbrev profileDefaultProfile : Field Profile := .bool (·.defaultProfile) fun v r => { r with defaultProfile := v }

abbrev userId : Field User := .uint64 (·.id) fun v r => { r with id := v }
abbrev userUsername : Field User := .text (·.username) fun v r => { r with username := v }
abbrev userUid : Field User := .uint64 (·.uid) fun v r => { r with uid := v }
abbrev userHomeDirectory : Field User := .text (·.homeDirectory) fun v r => { r with homeDirectory := v }
abbrev userShell : Field User := .text (·.shell) fun v r => { r with shell := v }
abbrev userEnabled : Field User := .bool (·.enabled) fun v r => { r with enabled := v }

abbrev siteId : Field Site := .uint64 (·.id) fun v r => { r with id := v }
abbrev siteDomain : Field Site := .text (·.domain) fun v r => { r with domain := v }
abbrev siteOwner : Field Site := .text (·.owner) fun v r => { r with owner := v }
abbrev siteNodeId : Field Site := .uint64 (·.nodeId) fun v r => { r with nodeId := v }
abbrev siteWebServer : Field Site := .text (·.webServer) fun v r => { r with webServer := v }
abbrev siteWebTemplateProfile : Field Site := .text (·.webTemplateProfile) fun v r => { r with webTemplateProfile := v }
abbrev sitePhpMailEnabled : Field Site := .bool (·.phpMailEnabled) fun v r => { r with phpMailEnabled := v }

abbrev domainId : Field Domain := .uint64 (·.id) fun v r => { r with id := v }
abbrev domainFqdn : Field Domain := .text (·.fqdn) fun v r => { r with fqdn := v }
abbrev domainOwnerId : Field Domain := .uint64 (·.ownerId) fun v r => { r with ownerId := v }
abbrev domainSiteId : Field Domain := .uint64 (·.siteId) fun v r => { r with siteId := v }
abbrev domainPhpVersion : Field Domain := .text (·.phpVersion) fun v r => { r with phpVersion := v }
abbrev domainSslEnabled : Field Domain := .bool (·.sslEnabled) fun v r => { r with sslEnabled := v }
abbrev domainEnabled : Field Domain := .bool (·.enabled) fun v r => { r with enabled := v }
abbrev domainType : Field Domain := .text (·.type) fun v r => { r with type := v }
abbrev domainTarget : Field Domain := .nullableText (·.target) fun v r => { r with target := v }

abbrev databaseId : Field Database := .uint64 (·.id) fun v r => { r with id := v }
abbrev databaseDbName : Field Database := .text (·.dbName) fun v r => { r with dbName := v }
abbrev databaseDbUser : Field Database := .text (·.dbUser) fun v r => { r with dbUser := v }
abbrev databaseDbPassword : Field Database := .text (·.dbPassword) fun v r => { r with dbPassword := v }
abbrev databaseEngine : Field Database := .text (·.engine) fun v r => { r with engine := v }
abbrev databaseVersion : Field Database := .text (·.version) fun v r => { r with version := v }
abbrev databaseOwnerId : Field Database := .uint64 (·.ownerId) fun v r => { r with ownerId := v }
abbrev databaseSiteId : Field Database := .uint64 (·.siteId) fun v r => { r with siteId := v }
abbrev databaseEnabled : Field Database := .bool (·.enabled) fun v r => { r with enabled := v }

abbrev backupId : Field Backup := .uint64 (·.id) fun v r => { r with id := v }
abbrev backupSiteId : Field Backup := .uint64 (·.siteId) fun v r => { r with siteId := v }
abbrev backupOwnerId : Field Backup := .uint64 (·.ownerId) fun v r => { r with ownerId := v }
abbrev backupFilename : Field Backup := .text (·.filename) fun v r => { r with filename := v }
abbrev backupType : Field Backup := .text (·.type) fun v r => { r with type := v }
abbrev backupSize : Field Backup := .uint64 (·.size) fun v r => { r with size := v }
abbrev backupCreatedAt : Field Backup := .text (·.createdAt) fun v r => { r with createdAt := v }
abbrev backupStatus : Field Backup := .text (·.status) fun v r => { r with status := v }
abbrev backupFilePath : Field Backup := .text (·.filePath) fun v r => { r with filePath := v }
abbrev backupCompression : Field Backup := .text (·.compression) fun v r => { r with compression := v }

abbrev proxyId : Field ReverseProxy := .uint64 (·.id) fun v r => { r with id := v }
abbrev proxyDomain : Field ReverseProxy := .text (·.domain) fun v r => { r with domain := v }
abbrev proxySiteId : Field ReverseProxy := .uint64 (·.siteId) fun v r => { r with siteId := v }
abbrev proxyProvider : Field ReverseProxy := .text (·.provider) fun v r => { r with provider := v }
abbrev proxyConfigPath : Field ReverseProxy := .text (·.configPath) fun v r => { r with configPath := v }
abbrev proxyUpstream : Field ReverseProxy := .text (·.upstream) fun v r => { r with upstream := v }
abbrev proxyEnabled : Field ReverseProxy := .bool (·.enabled) fun v r => { r with enabled := v }
abbrev proxyStatus : Field ReverseProxy := .text (·.status) fun v r => { r with status := v }

abbrev accessUserId : Field AccessUser := .uint64 (·.id) fun v r => { r with id := v }
abbrev accessUserUsername : Field AccessUser := .text (·.username) fun v r => { r with username := v }
abbrev accessUserAuthType : Field AccessUser := .text (·.authType) fun v r => { r with authType := v }
abbrev accessUserPasswordHash : Field AccessUser := .text (·.passwordHash) fun v r => { r with passwordHash := v }
abbrev accessUserEnabled : Field AccessUser := .bool (·.enabled) fun v r => { r with enabled := v }

abbrev grantId : Field AccessGrant := .uint64 (·.id) fun v r => { r with id := v }
abbrev grantAccessUserId : Field AccessGrant := .uint64 (·.accessUserId) fun v r => { r with accessUserId := v }
abbrev grantSiteId : Field AccessGrant := .uint64 (·.siteId) fun v r => { r with siteId := v }
abbrev grantPermission : Field AccessGrant :=
  .choice validPermission (·.permission.toText) fun text r => { r with permission := .ofText text }

abbrev keyId : Field AccessKey := .uint64 (·.id) fun v r => { r with id := v }
abbrev keyAccessUserId : Field AccessKey := .uint64 (·.accessUserId) fun v r => { r with accessUserId := v }
abbrev keyKeyType : Field AccessKey := .text (·.keyType) fun v r => { r with keyType := v }
abbrev keyKeyData : Field AccessKey := .text (·.keyData) fun v r => { r with keyData := v }
abbrev keyKeyComment : Field AccessKey := .text (·.keyComment) fun v r => { r with keyComment := v }
abbrev keyFingerprint : Field AccessKey := .text (·.fingerprint) fun v r => { r with fingerprint := v }
abbrev keyEnabled : Field AccessKey := .bool (·.enabled) fun v r => { r with enabled := v }

abbrev authUserId : Field AuthUser := .uint64 (·.id) fun v r => { r with id := v }
abbrev authUserUsername : Field AuthUser := .text (·.username) fun v r => { r with username := v }
abbrev authUserPasswordHash : Field AuthUser := .text (·.passwordHash) fun v r => { r with passwordHash := v }
abbrev authUserMustChangePassword : Field AuthUser := .bool (·.mustChangePassword) fun v r => { r with mustChangePassword := v }
abbrev authUserEnabled : Field AuthUser := .bool (·.enabled) fun v r => { r with enabled := v }
abbrev authUserRole : Field AuthUser := .text (·.role) fun v r => { r with role := v }

abbrev sslId : Field SslCertificate := .uint64 (·.id) fun v r => { r with id := v }
abbrev sslDomainId : Field SslCertificate := .uint64 (·.domainId) fun v r => { r with domainId := v }
abbrev sslDomain : Field SslCertificate := .text (·.domain) fun v r => { r with domain := v }
abbrev sslProvider : Field SslCertificate := .text (·.provider) fun v r => { r with provider := v }
abbrev sslCertificatePath : Field SslCertificate := .text (·.certificatePath) fun v r => { r with certificatePath := v }
abbrev sslKeyPath : Field SslCertificate := .text (·.keyPath) fun v r => { r with keyPath := v }
abbrev sslChainPath : Field SslCertificate := .text (·.chainPath) fun v r => { r with chainPath := v }
abbrev sslIssuedAt : Field SslCertificate := .text (·.issuedAt) fun v r => { r with issuedAt := v }
abbrev sslExpiresAt : Field SslCertificate := .text (·.expiresAt) fun v r => { r with expiresAt := v }
abbrev sslRenewAfter : Field SslCertificate := .text (·.renewAfter) fun v r => { r with renewAfter := v }
abbrev sslStatus : Field SslCertificate := .text (·.status) fun v r => { r with status := v }
abbrev sslAutoRenew : Field SslCertificate := .bool (·.autoRenew) fun v r => { r with autoRenew := v }
abbrev sslHttpsEnabled : Field SslCertificate := .bool (·.httpsEnabled) fun v r => { r with httpsEnabled := v }
abbrev sslRedirectEnabled : Field SslCertificate := .bool (·.redirectEnabled) fun v r => { r with redirectEnabled := v }
abbrev sslDomains : Field SslCertificate := .text (·.domains) fun v r => { r with domains := v }
abbrev sslChallengeType : Field SslCertificate := .text (·.challengeType) fun v r => { r with challengeType := v }
abbrev sslLastError : Field SslCertificate := .text (·.lastError) fun v r => { r with lastError := v }
abbrev sslLastValidation : Field SslCertificate := .text (·.lastValidation) fun v r => { r with lastValidation := v }
abbrev sslRenewAttempts : Field SslCertificate := .int (·.renewAttempts) fun v r => { r with renewAttempts := v }
abbrev sslVersion : Field SslCertificate := .int (·.version) fun v r => { r with version := v }

abbrev mailDomainId : Field MailDomain := .uint64 (·.id) fun v r => { r with id := v }
abbrev mailDomainDomainId : Field MailDomain := .uint64 (·.domainId) fun v r => { r with domainId := v }
abbrev mailDomainSiteId : Field MailDomain := .uint64 (·.siteId) fun v r => { r with siteId := v }
abbrev mailDomainDomainName : Field MailDomain := .text (·.domainName) fun v r => { r with domainName := v }
abbrev mailDomainMode : Field MailDomain :=
  .choice validMailMode (·.mode.toText) fun text r => { r with mode := .ofText text }
abbrev mailDomainRelayHost : Field MailDomain := .text (·.relayHost) fun v r => { r with relayHost := v }
abbrev mailDomainDkimSelector : Field MailDomain := .text (·.dkimSelector) fun v r => { r with dkimSelector := v }
abbrev mailDomainDkimPrivateKeyPath : Field MailDomain := .text (·.dkimPrivateKeyPath) fun v r => { r with dkimPrivateKeyPath := v }
abbrev mailDomainDkimPublicKeyDns : Field MailDomain := .text (·.dkimPublicKeyDns) fun v r => { r with dkimPublicKeyDns := v }
abbrev mailDomainMaxMailboxes : Field MailDomain := .uint64 (·.maxMailboxes) fun v r => { r with maxMailboxes := v }
abbrev mailDomainMaxAliases : Field MailDomain := .uint64 (·.maxAliases) fun v r => { r with maxAliases := v }
abbrev mailDomainCatchAll : Field MailDomain := .text (·.catchAll) fun v r => { r with catchAll := v }
abbrev mailDomainEnabled : Field MailDomain := .bool (·.enabled) fun v r => { r with enabled := v }
abbrev mailDomainCreatedAt : Field MailDomain := .text (·.createdAt) fun v r => { r with createdAt := v }
abbrev mailDomainUpdatedAt : Field MailDomain := .text (·.updatedAt) fun v r => { r with updatedAt := v }

abbrev mailboxId : Field Mailbox := .uint64 (·.id) fun v r => { r with id := v }
abbrev mailboxDomainId : Field Mailbox := .uint64 (·.domainId) fun v r => { r with domainId := v }
abbrev mailboxLocalPart : Field Mailbox := .text (·.localPart) fun v r => { r with localPart := v }
abbrev mailboxPasswordHash : Field Mailbox := .text (·.passwordHash) fun v r => { r with passwordHash := v }
abbrev mailboxQuotaBytes : Field Mailbox := .uint64 (·.quotaBytes) fun v r => { r with quotaBytes := v }
abbrev mailboxQuotaMessages : Field Mailbox := .uint64 (·.quotaMessages) fun v r => { r with quotaMessages := v }
abbrev mailboxEnabled : Field Mailbox := .bool (·.enabled) fun v r => { r with enabled := v }
abbrev mailboxDisplayName : Field Mailbox := .nullableText (·.displayName) fun v r => { r with displayName := v }
abbrev mailboxForwardTo : Field Mailbox := .nullableText (·.forwardTo) fun v r => { r with forwardTo := v }
abbrev mailboxSpamEnabled : Field Mailbox := .bool (·.spamEnabled) fun v r => { r with spamEnabled := v }
abbrev mailboxLastLogin : Field Mailbox := .text (·.lastLogin) fun v r => { r with lastLogin := v }
abbrev mailboxCreatedAt : Field Mailbox := .text (·.createdAt) fun v r => { r with createdAt := v }
abbrev mailboxUpdatedAt : Field Mailbox := .text (·.updatedAt) fun v r => { r with updatedAt := v }

abbrev aliasId : Field MailAlias := .uint64 (·.id) fun v r => { r with id := v }
abbrev aliasDomainId : Field MailAlias := .uint64 (·.domainId) fun v r => { r with domainId := v }
abbrev aliasSourceLocalPart : Field MailAlias := .text (·.sourceLocalPart) fun v r => { r with sourceLocalPart := v }
abbrev aliasDestination : Field MailAlias := .text (·.destination) fun v r => { r with destination := v }
abbrev aliasEnabled : Field MailAlias := .bool (·.enabled) fun v r => { r with enabled := v }
abbrev aliasCreatedAt : Field MailAlias := .text (·.createdAt) fun v r => { r with createdAt := v }
abbrev aliasUpdatedAt : Field MailAlias := .text (·.updatedAt) fun v r => { r with updatedAt := v }

end Field

end ContainerCP.Storage
