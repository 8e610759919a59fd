import ContainerCP.Storage.MigrationEngine

/-! The schema migrations of the storage: their DDL statement by statement, the
callbacks that run it, and the registration of all of them. A schema is the
tables with their columns, the indexes, and the rows of `storage_meta`; the
types and defaults of the columns play no part in what a statement does. -/
namespace ContainerCP.Storage

inductive SchemaStmt where
  | createTable (table : String) (columns : List String)
  | createIndex (index : String) (table : String) (columns : List String)
  | addColumn (table : String) (column : String)
  | setMeta (key : String) (value : String)
  deriving DecidableEq

structure SchemaDb where
  tables : List (String × List String) := []
  indexes : List String := []
  storageMeta : List (String × String) := []
  deriving DecidableEq

namespace SchemaDb

def columns (db : SchemaDb) (table : String) : Option (List String) :=
  db.tables.lookup table

/-- `CREATE TABLE IF NOT EXISTS`. -/
def createTable (db : SchemaDb) (table : String) (columns : List String) : SchemaDb :=
  if (db.columns table).isSome then db
  else { db with tables := db.tables ++ [(table, columns)] }

/-- `CREATE INDEX IF NOT EXISTS`: the columns have to be there. -/
def createIndex (db : SchemaDb) (index table : String) (columns : List String) : Option SchemaDb :=
  if db.indexes.contains index then some db
  else
    match db.columns table with
    | none => none
    | some present =>
        if columns.all (present.contains ·) then some { db with indexes := db.indexes ++ [index] }
        else none

/-- `ALTER TABLE ... ADD COLUMN`, for which there is no `IF NOT EXISTS`. -/
def addColumn (db : SchemaDb) (table column : String) : Option SchemaDb :=
  match db.columns table with
  | none => none
  | some present =>
      if present.contains column then none
      else some
        { db with
          tables := db.tables.map fun entry =>
            if entry.1 = table then (table, entry.2 ++ [column]) else entry }

/-- `INSERT OR REPLACE INTO storage_meta`. -/
def setMeta (db : SchemaDb) (key value : String) : SchemaDb :=
  { db with storageMeta := db.storageMeta.filter (·.1 ≠ key) ++ [(key, value)] }

end SchemaDb

def SchemaStmt.exec (db : SchemaDb) : SchemaStmt → Option SchemaDb
  | .createTable table columns => some (db.createTable table columns)
  | .createIndex index table columns => db.createIndex index table columns
  | .addColumn table column => db.addColumn table column
  | .setMeta key value => some (db.setMeta key value)

/-- `db.exec` with several statements, up to the first that fails. -/
def execScript : List SchemaStmt → SchemaDb → SchemaDb × Option SchemaStmt
  | [], db => (db, none)
  | stmt :: rest, db =>
      match stmt.exec db with
      | some db' => execScript rest db'
      | none => (db, some stmt)

def kSchemaV1DDL : List SchemaStmt :=
  [ .createTable "nodes"
        ["id", "name", "type", "created_at", "updated_at"],
    .createTable "sites"
        ["id", "domain", "owner", "node_id", "web_server", "php_mail_enabled",
        "web_template_profile", "created_at", "updated_at"],
    .createIndex "idx_sites_node_id" "sites" ["node_id"],
    .createTable "users"
        ["id", "username", "uid", "home_directory", "shell", "enabled", "created_at", "updated_at"],
    .createTable "domains"
        ["id", "fqdn", "owner_id", "site_id", "php_version", "ssl_enabled", "enabled", "type",
        "target", "created_at", "updated_at"],
    .createIndex "idx_domains_site_id" "domains" ["site_id"],
    .createIndex "idx_domains_owner_id" "domains" ["owner_id"],
    .createTable "php_versions"
        ["id", "version", "image", "enabled", "default_version", "created_at", "updated_at"],
    .createTable "databases"
        ["id", "db_name", "db_user", "db_password", "engine", "version", "owner_id", "site_id",
        "enabled", "created_at", "updated_at"],
    .createIndex "idx_databases_site_id" "databases" ["site_id"],
    .createTable "backups"
        ["id", "site_id", "owner_id", "filename", "type", "size", "created_at", "status",
        "file_path", "compression", "updated_at"],
    .createIndex "idx_backups_site_id" "backups" ["site_id"],
    .createTable "ssl_certificates"
        ["id", "domain_id", "domain", "provider", "certificate_path", "key_path", "chain_path",
        "issued_at", "expires_at", "renew_after", "status", "auto_renew", "https_enabled",
        "redirect_enabled", "domains", "challenge_type", "last_error", "last_validation",
        "renew_attempts", "version", "created_at", "updated_at"],
    .createIndex "idx_ssl_domain_id" "ssl_certificates" ["domain_id"],
    .createTable "mail_domains"
        ["id", "domain_id", "site_id", "domain_name", "mode", "relay_host", "dkim_selector",
        "dkim_private_key_path", "dkim_public_key_dns", "max_mailboxes", "max_aliases",
        "catch_all", "enabled", "created_at", "updated_at"],
    .createIndex "idx_mail_domains_domain_id" "mail_domains" ["domain_id"],
    .createIndex "idx_mail_domains_site_id" "mail_domains" ["site_id"],
    .createTable "mail_mailboxes"
        ["id", "domain_id", "local_part", "password_hash", "quota_bytes", "quota_messages",
        "enabled", "display_name", "forward_to", "spam_enabled", "last_login", "created_at",
        "updated_at"],
    .createIndex "idx_mailboxes_domain_id" "mail_mailboxes" ["domain_id"],
    .createTable "mail_aliases"
        ["id", "domain_id", "source_local_part", "destination", "enabled", "created_at",
        "updated_at"],
    .createIndex "idx_aliases_domain_id" "mail_aliases" ["domain_id"],
    .createTable "access_users"
        ["id", "username", "auth_type", "password_hash", "enabled", "created_at", "updated_at"],
    .createTable "access_grants"
        ["id", "access_user_id", "site_id", "permission", "created_at", "updated_at"],
    .createIndex "idx_grants_user_id" "access_grants" ["access_user_id"],
    .createIndex "idx_grants_site_id" "access_grants" ["site_id"],
    .createTable "reverse_proxies"
        ["id", "domain", "site_id", "provider", "config_path", "upstream", "enabled", "status",
        "created_at", "updated_at"],
    .createIndex "idx_proxies_site_id" "reverse_proxies" ["site_id"],
    .createTable "profiles"
        ["id", "profile_name", "type", "web_server", "runtime", "template_path", "description",
        "enabled", "default_profile", "created_at", "updated_at"],
    .createTable "auth_users"
        ["id", "username", "password_hash", "must_change_password", "enabled", "role", "created_at",
        "updated_at"],
    .createTable "mail_config"
        ["key", "value"] ]

def kSchemaV2DDL : List SchemaStmt :=
  [ .createTable "access_keys"
        ["id", "access_user_id", "key_type", "key_data", "key_comment", "fingerprint", "enabled",
        "created_at", "updated_at"],
    .createIndex "idx_keys_user_id" "access_keys" ["access_user_id"] ]

def kSchemaV3DDL : List SchemaStmt :=
  [ .createTable "system_accounts"
        ["entity_type", "entity_id", "uid", "gid", "username", "groupname", "state", "created_at",
        "updated_at"],
    .createIndex "idx_sysacct_username" "system_accounts" ["username"],
    .createIndex "idx_sysacct_uid" "system_accounts" ["uid"],
    .createIndex "idx_sysacct_groupname" "system_accounts" ["groupname"] ]

def kSchemaV4Home : List SchemaStmt :=
  [ .addColumn "system_accounts" "home" ]

def kSchemaV7LastError : List SchemaStmt :=
  [ .addColumn "system_accounts" "last_error" ]

def kSchemaV5ManagedMounts : List SchemaStmt :=
  [ .createTable "managed_mounts"
        ["access_user_id", "site_id", "domain", "source_path", "target_path", "state", "last_error",
        "created_at", "updated_at"],
    .createIndex "idx_managed_mounts_user" "managed_mounts" ["access_user_id"] ]

def kSchemaV6GrantLifecycle : List SchemaStmt :=
  [ .createTable "grant_lifecycle"
        ["access_user_id", "site_id", "permission", "state", "last_error", "created_at",
        "updated_at"],
    .createIndex "idx_grant_lifecycle_user" "grant_lifecycle" ["access_user_id"],
    .createIndex "idx_grant_lifecycle_site" "grant_lifecycle" ["site_id"] ]

def kMetaSchemaVersion : String := "1"
def kMetaStorageBackend : String := "sqlite_schema"
def kMetaMigrationState : String := "schema_created"

section Callbacks

variable (errorMessage : SchemaStmt → Bytes)

/-- A script and then, if it went well, the rest of a callback. -/
def thenScript (script : List SchemaStmt) (failure : Bytes) (next : UpCallback SchemaDb) :
    UpCallback SchemaDb := fun db =>
  match execScript script db with
  | (db', some stmt) => (db', false, failure ++ errorMessage stmt)
  | (db', none) => next db'

def succeed : UpCallback SchemaDb := fun db => (db, true, [])

def setMeta (key value : String) (next : UpCallback SchemaDb) : UpCallback SchemaDb :=
  thenScript errorMessage [.setMeta key value] (bytes "Failed to set " ++ bytes key ++ bytes ": ") next

def initialUp : UpCallback SchemaDb :=
  thenScript errorMessage kSchemaV1DDL [] <|
    setMeta errorMessage "storage_backend" kMetaStorageBackend <|
      setMeta errorMessage "schema_version" kMetaSchemaVersion <|
        setMeta errorMessage "migration_state" kMetaMigrationState succeed

/-- The callbacks of the later migrations differ in their DDL, in the text of
the error and in the version that they record. -/
def versionedUp (ddl : List SchemaStmt) (failure : Bytes) (version : String) : UpCallback SchemaDb :=
  thenScript errorMessage ddl failure <|
    thenScript errorMessage [.setMeta "schema_version" version]
      (bytes "Failed to update schema_version: ") succeed

end Callbacks

/-- The texts of the DDL, which are the descriptors of the migrations. -/
structure DdlText where
  text : Int → Bytes
  nonempty : ∀ version, text version ≠ []

variable (errorMessage : SchemaStmt → Bytes) (ddl : DdlText)

def schemaMigrations : List (Migration SchemaDb) :=
  [ { version := 1, name := bytes "initial_business_schema", descriptor := ddl.text 1,
      up := some (initialUp errorMessage) },
    { version := 2, name := bytes "ssh_public_keys", descriptor := ddl.text 2,
      up := some (versionedUp errorMessage kSchemaV2DDL
        (bytes "access_keys table creation failed: ") "2") },
    { version := 3, name := bytes "system_account_mappings", descriptor := ddl.text 3,
      up := some (versionedUp errorMessage kSchemaV3DDL
        (bytes "system_accounts table creation failed: ") "3") },
    { version := 4, name := bytes "system_accounts_home", descriptor := ddl.text 4,
      up := some (versionedUp errorMessage kSchemaV4Home
        (bytes "system_accounts.home column add failed: ") "4") },
    { version := 5, name := bytes "managed_mounts", descriptor := ddl.text 5,
      up := some (versionedUp errorMessage kSchemaV5ManagedMounts
        (bytes "managed_mounts table creation failed: ") "5") },
    { version := 6, name := bytes "grant_lifecycle", descriptor := ddl.text 6,
      up := some (versionedUp errorMessage kSchemaV6GrantLifecycle
        (bytes "grant_lifecycle table creation failed: ") "6") },
    { version := 7, name := bytes "system_accounts_last_error", descriptor := ddl.text 7,
      up := some (versionedUp errorMessage kSchemaV7LastError
        (bytes "system_accounts.last_error column add failed: ") "7") } ]

def registerAllSchemaMigrations (engine : MigrationEngine SchemaDb) : MigrationEngine SchemaDb :=
  (schemaMigrations errorMessage ddl).foldl MigrationEngine.registerMigration engine

end ContainerCP.Storage
