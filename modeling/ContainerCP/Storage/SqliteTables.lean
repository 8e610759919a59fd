import Std.Data.ExtTreeMap.Lemmas
import ContainerCP.Storage.Fields

/-! The tables of the business schema, with their primary keys, foreign keys and
unique columns, and what one statement does to them. -/
namespace ContainerCP.Storage

open Sql (Cell)

/-- The columns that the statements of `SQLiteStorage` bind and select, in their
order; the first one is the primary key. -/
def Resource.columns : (resource : Resource) → List (Field resource.Record)
  | nodes => [.nodeId, .nodeName, .nodeType]
  | phpVersions => [.phpId, .phpVersion, .phpImage, .phpEnabled, .phpDefaultVersion]
  | profiles => [.profileId, .profileProfileName, .profileType, .profileWebServer, .profileRuntime,
      .profileTemplatePath, .profileDescription, .profileEnabled, .profileDefaultProfile]
  | users => [.userId, .userUsername, .userUid, .userHomeDirectory, .userShell, .userEnabled]
  | sites => [.siteId, .siteDomain, .siteOwner, .siteNodeId, .siteWebServer, .sitePhpMailEnabled,
      .siteWebTemplateProfile]
  | domains => [.domainId, .domainFqdn, .domainOwnerId, .domainSiteId, .domainPhpVersion,
      .domainSslEnabled, .domainEnabled, .domainType, .domainTarget]
  | databases => [.databaseId, .databaseDbName, .databaseDbUser, .databaseDbPassword, .databaseEngine,
      .databaseVersion, .databaseOwnerId, .databaseSiteId, .databaseEnabled]
  | backups => [.backupId, .backupSiteId, .backupOwnerId, .backupFilename, .backupType, .backupSize,
      .backupCreatedAt, .backupStatus, .backupFilePath, .backupCompression]
  | reverseProxies => [.proxyId, .proxyDomain, .proxySiteId, .proxyProvider, .proxyConfigPath,
      .proxyUpstream, .proxyEnabled, .proxyStatus]
  | accessUsers => [.accessUserId, .accessUserUsername, .accessUserAuthType, .accessUserPasswordHash,
      .accessUserEnabled]
  | accessGrants => [.grantId, .grantAccessUserId, .grantSiteId, .grantPermission]
  | authUsers => [.authUserId, .authUserUsername, .authUserPasswordHash, .authUserMustChangePassword,
      .authUserEnabled, .authUserRole]
  | sslCertificates => [.sslId, .sslDomainId, .sslDomain, .sslProvider, .sslCertificatePath, .sslKeyPath,
      .sslChainPath, .sslIssuedAt, .sslExpiresAt, .sslRenewAfter, .sslStatus, .sslAutoRenew,
      .sslHttpsEnabled, .sslRedirectEnabled, .sslDomains, .sslChallengeType, .sslLastError,
      .sslLastValidation, .sslRenewAttempts, .sslVersion]
  | mailDomains => [.mailDomainId, .mailDomainDomainId, .mailDomainSiteId, .mailDomainDomainName,
      .mailDomainMode, .mailDomainRelayHost, .mailDomainDkimSelector, .mailDomainDkimPrivateKeyPath,
      .mailDomainDkimPublicKeyDns, .mailDomainMaxMailboxes, .mailDomainMaxAliases, .mailDomainCatchAll,
      .mailDomainEnabled, .mailDomainCreatedAt, .mailDomainUpdatedAt]
  | mailMailboxes => [.mailboxId, .mailboxDomainId, .mailboxLocalPart, .mailboxPasswordHash,
      .mailboxQuotaBytes, .mailboxQuotaMessages, .mailboxEnabled, .mailboxDisplayName, .mailboxForwardTo,
      .mailboxSpamEnabled, .mailboxLastLogin, .mailboxCreatedAt, .mailboxUpdatedAt]
  | mailAliases => [.aliasId, .aliasDomainId, .aliasSourceLocalPart, .aliasDestination, .aliasEnabled,
      .aliasCreatedAt, .aliasUpdatedAt]
  | accessKeys => [.keyId, .keyAccessUserId, .keyKeyType, .keyKeyData, .keyKeyComment, .keyFingerprint,
      .keyEnabled]

/-- How many of `created_at` and `updated_at` the statement fills with the time
instead of binding them. -/
def Resource.stampCount : Resource → Nat
  | backups => 1
  | mailDomains | mailMailboxes | mailAliases => 0
  | _ => 2

/-- A row: the bound columns behind the primary key, and the time stamps that the
statement itself set. -/
structure Row where
  cells : List Cell
  stamps : List Bytes
  deriving DecidableEq

/-- A table by its `INTEGER PRIMARY KEY`. -/
abbrev Table := Std.ExtTreeMap Int64 Row

/-- The primary key of a record's row. -/
def Resource.key (resource : Resource) (record : resource.Record) : Int64 :=
  (resource.recordId record).toInt64

/-- The other bound columns of a record's row. -/
def Resource.cells (resource : Resource) (record : resource.Record) : List Cell :=
  resource.columns.tail.map (·.bind record)

/-- The values of `mail_config` under its two keys. -/
structure MailConfig where
  moduleState : Option Bytes := none
  smarthost : Option Bytes := none
  deriving DecidableEq

/-- The contents of the database. An old `sites` table lacks the column
`web_template_profile`. -/
structure SqliteData where
  tables : Resource → Table := fun _ => ∅
  mailConfig : MailConfig := {}
  sitesTemplateColumn : Bool := true

structure ForeignKey where
  child : Resource
  column : Nat
  parent : Resource
  cascades : Bool
  deriving DecidableEq

/-- The foreign keys of the schema, with the column among those behind the
primary key: four times `ON DELETE RESTRICT` and once `ON DELETE CASCADE`. -/
def foreignKeys : List ForeignKey :=
  [⟨.mailMailboxes, 0, .mailDomains, false⟩,
    ⟨.mailAliases, 0, .mailDomains, false⟩,
    ⟨.accessGrants, 0, .accessUsers, false⟩,
    ⟨.accessGrants, 1, .sites, false⟩,
    ⟨.accessKeys, 0, .accessUsers, true⟩]

/-- The row of the parent table that a row of the child table points to. -/
def ForeignKey.reference (foreignKey : ForeignKey) (row : Row) : Option Int64 :=
  match row.cells[foreignKey.column]? with
  | some (.integer id) => some id
  | _ => none

namespace SqliteData

/-- Replace one table. -/
def withTable (db : SqliteData) (resource : Resource) (table : Table) : SqliteData :=
  { db with tables := Function.update db.tables resource table }

/-- Every foreign key of a new row finds its parent. -/
def parentsExist (db : SqliteData) (resource : Resource) (row : Row) : Bool :=
  foreignKeys.all fun foreignKey =>
    foreignKey.child ≠ resource ||
      (foreignKey.reference row).any fun id => (db.tables foreignKey.parent).contains id

/-- `PRAGMA foreign_key_check` finds nothing. -/
def foreignKeysHold (db : SqliteData) : Bool :=
  foreignKeys.all fun foreignKey =>
    (db.tables foreignKey.child).toList.all fun entry =>
      (foreignKey.reference entry.2).any fun id => (db.tables foreignKey.parent).contains id

/-- `UNIQUE(access_user_id, fingerprint)` of `access_keys`, the only unique
columns besides the primary keys. -/
def isUnique (db : SqliteData) (resource : Resource) (row : Row) : Bool :=
  resource ≠ .accessKeys ||
    (db.tables resource).toList.all fun entry =>
      (entry.2.cells[0]?, entry.2.cells[4]?) ≠ (row.cells[0]?, row.cells[4]?)

/-- The statement names no column that the table does not have. -/
def hasColumns (db : SqliteData) (resource : Resource) : Bool :=
  resource ≠ .sites || db.sitesTemplateColumn

/-- `INSERT INTO ... VALUES ...`. -/
def insert (resource : Resource) (now : Bytes) (record : resource.Record) (db : SqliteData) :
    Option SqliteData :=
  let row : Row := ⟨resource.cells record, List.replicate resource.stampCount now⟩
  if db.hasColumns resource && !(db.tables resource).contains (resource.key record) &&
      db.isUnique resource row && db.parentsExist resource row then
    some (db.withTable resource ((db.tables resource).insert (resource.key record) row))
  else none

/-- `INSERT INTO ... VALUES ... ON CONFLICT(id) DO UPDATE SET ...`: an existing
row keeps its `created_at`. -/
def upsert (resource : Resource) (now : Bytes) (record : resource.Record) (db : SqliteData) :
    Option SqliteData :=
  match (db.tables resource)[resource.key record]? with
  | none => insert resource now record db
  | some old =>
      if db.hasColumns resource then
        some (db.withTable resource ((db.tables resource).insert (resource.key record)
          ⟨resource.cells record, old.stamps.set 1 now⟩))
      else none

/-- The row points to a row of the parent table that is being deleted. -/
def pointsTo (db : SqliteData) (foreignKey : ForeignKey) (doomed : Int64 → Bool) (row : Row) : Bool :=
  (foreignKey.reference row).any fun id => doomed id && (db.tables foreignKey.parent).contains id

/-- `DELETE FROM ... WHERE ...` with a condition on the primary key. A row that
a restricting foreign key points to keeps the statement from all effect; the
rows that point to a deleted row by a cascading one go with it. -/
def delete (resource : Resource) (doomed : Int64 → Bool) (db : SqliteData) : Option SqliteData :=
  if foreignKeys.any fun foreignKey =>
      foreignKey.parent = resource && !foreignKey.cascades &&
        (db.tables foreignKey.child).toList.any fun entry => db.pointsTo foreignKey doomed entry.2 then
    none
  else
    some { db with
      tables := fun other =>
        (db.tables other).filter fun id row =>
          !(other = resource && doomed id) &&
            foreignKeys.all fun foreignKey =>
              !(foreignKey.child = other && foreignKey.parent = resource && foreignKey.cascades &&
                db.pointsTo foreignKey doomed row) }

/-- `ALTER TABLE sites ADD COLUMN web_template_profile TEXT NOT NULL DEFAULT ''`. -/
def addSitesTemplateColumn (db : SqliteData) : Option SqliteData :=
  if db.sitesTemplateColumn then none
  else
    some { db.withTable .sites ((db.tables .sites).map fun _ row =>
        { row with cells := row.cells ++ [.text []] }) with
      sitesTemplateColumn := true }

end SqliteData

end ContainerCP.Storage
