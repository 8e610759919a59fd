import ContainerCP.Api.Router

/-! The handlers that `ApiServer` registers, and which of their patterns they serve. -/
namespace ContainerCP.Api

/-- The handlers, each under what it is registered for. -/
inductive Endpoint where
  | versionGet
  | healthGet
  | sitesGet
  | usersGet
  | domainsGet
  | domainsUnderGet
  | proxyGet
  | proxyHealthGet
  | proxyTestPost
  | proxyReloadPost
  | proxySyncPost
  | proxyRecoverPost
  | runtimeUnderGet
  | runtimeUnderPost
  | wordpressDatabaseCredentialsRotatePost
  | wordpressDatabaseCredentialsStatusGet
  | wordpressCliUnderGet
  | wordpressCliUnderPost
  | settingsGet
  | settingsPost
  | sslGet
  | backupsGet
  | backupsUnderGet
  | databasesGet
  | databasesPost
  | databasesUnderPost
  | databaseSessionGet
  | sqlConsoleInternalRedeemPost
  | databaseGet
  | accessUsersGet
  | profilesGet
  | profilesPost
  | profilesUnderPost
  | profilesUnderDelete
  | nodesGet
  | logsGet
  | jobHandler
  | sitesCreatePost
  | sitesRemovePost
  | backupCreateHandler
  | backupsRemovePost
  | backupsRestorePost
  | backupsUnderPost
  | sslProvidersGet
  | sslUnderGet
  | sslUnderPost
  | domainsRemovePost
  | databasesRemovePost
  | sslRemovePost
  | proxyRemovePost
  | accessUsersRemovePost
  | sslEnablePost
  | sslDisablePost
  | mailDomainsUnderGet
  | mailDomainsUnderPost
  | mailDomainsGet
  | mailDomainsPost
  | mailDomainPatch
  | mailDomainsUnderDelete
  | mailDomainPatchTransactional
  | sitesUnderGet
  | sitesUnderPost
  | mailMailboxesUnderPatch
  | mailMailboxesUnderPost
  | mailMailboxesUnderDelete
  | mailAliasesUnderDelete
  | mailAliasesUnderPatch
  | mailStatusGet
  | mailHealthGet
  | mailActivatePost
  | mailDeactivatePost
  | mailRegeneratePost
  | mailReloadPost
  | mailRecoverPost
  | mailSmarthostGet
  | mailSmarthostPost
  | migrationVestaBackupsGet
  | migrationVestaInspectPost
  | migrationVestaCreateSitePost
  | migrationVestaImportFilesPost
  | migrationVestaImportSqlPost
  | migrationVestaMigratePost
  | sftpUsersGet
  | sftpUserGet
  | sftpUsersPost
  | sftpUserPatch
  | sftpUserDelete
  | sftpKeysGrantsPost
  | sftpKeysGet
  | sftpKeyPatch
  | sftpKeyDelete
  | sftpGrantsGet
  | sftpGrantPatch
  | sftpGrantDelete
  | sftpStatusGet
  | sftpReconcilePost
  deriving DecidableEq

def exact (method path : String) (handler : Endpoint) : Route Endpoint := ⟨bytes method, bytes path, handler, false⟩

def under (method path : String) (handler : Endpoint) : Route Endpoint := ⟨bytes method, bytes path, handler, true⟩

/-- The routes, in the order of their registration. -/
def apiRouter : Router Endpoint :=
  [ exact "GET" "/api/version" .versionGet,
    exact "GET" "/api/health" .healthGet,
    exact "GET" "/api/sites" .sitesGet,
    exact "GET" "/api/users" .usersGet,
    exact "GET" "/api/domains" .domainsGet,
    under "GET" "/api/domains/" .domainsUnderGet,
    exact "GET" "/api/proxy" .proxyGet,
    exact "GET" "/api/proxy/health" .proxyHealthGet,
    exact "POST" "/api/proxy/test" .proxyTestPost,
    exact "POST" "/api/proxy/reload" .proxyReloadPost,
    exact "POST" "/api/proxy/sync" .proxySyncPost,
    exact "POST" "/api/proxy/recover" .proxyRecoverPost,
    under "GET" "/api/runtime/" .runtimeUnderGet,
    under "POST" "/api/runtime/" .runtimeUnderPost,
    exact "POST" "/api/wordpress/database-credentials/rotate" .wordpressDatabaseCredentialsRotatePost,
    exact "GET" "/api/wordpress/database-credentials/status" .wordpressDatabaseCredentialsStatusGet,
    under "GET" "/api/wordpress/cli/" .wordpressCliUnderGet,
    under "POST" "/api/wordpress/cli/" .wordpressCliUnderPost,
    exact "GET" "/api/settings" .settingsGet,
    exact "POST" "/api/settings" .settingsPost,
    exact "GET" "/api/ssl" .sslGet,
    exact "GET" "/api/backups" .backupsGet,
    under "GET" "/api/backups/" .backupsUnderGet,
    exact "GET" "/api/databases" .databasesGet,
    exact "POST" "/api/databases" .databasesPost,
    under "POST" "/api/databases/" .databasesUnderPost,
    under "GET" "/api/databases/" .databaseSessionGet,
    exact "POST" "/api/sql-console/internal/redeem" .sqlConsoleInternalRedeemPost,
    under "GET" "/api/databases/" .databaseGet,
    exact "GET" "/api/access-users" .accessUsersGet,
    exact "GET" "/api/profiles" .profilesGet,
    exact "POST" "/api/profiles" .profilesPost,
    under "POST" "/api/profiles/" .profilesUnderPost,
    under "DELETE" "/api/profiles/" .profilesUnderDelete,
    exact "GET" "/api/nodes" .nodesGet,
    exact "GET" "/api/logs" .logsGet,
    exact "GET" "/api/jobs" .jobHandler,
    exact "POST" "/api/sites/create" .sitesCreatePost,
    exact "POST" "/api/sites/remove" .sitesRemovePost,
    exact "POST" "/api/backups" .backupCreateHandler,
    exact "POST" "/api/backups/create" .backupCreateHandler,
    exact "POST" "/api/backups/remove" .backupsRemovePost,
    exact "POST" "/api/backups/restore" .backupsRestorePost,
    under "POST" "/api/backups/" .backupsUnderPost,
    exact "GET" "/api/ssl/providers" .sslProvidersGet,
    under "GET" "/api/ssl/" .sslUnderGet,
    under "POST" "/api/ssl/" .sslUnderPost,
    exact "POST" "/api/domains/remove" .domainsRemovePost,
    exact "POST" "/api/databases/remove" .databasesRemovePost,
    exact "POST" "/api/ssl/remove" .sslRemovePost,
    exact "POST" "/api/proxy/remove" .proxyRemovePost,
    exact "POST" "/api/access-users/remove" .accessUsersRemovePost,
    exact "POST" "/api/ssl/enable" .sslEnablePost,
    exact "POST" "/api/ssl/disable" .sslDisablePost,
    under "GET" "/api/mail/domains/" .mailDomainsUnderGet,
    under "POST" "/api/mail/domains/" .mailDomainsUnderPost,
    exact "GET" "/api/mail/domains" .mailDomainsGet,
    exact "POST" "/api/mail/domains" .mailDomainsPost,
    under "PATCH" "/api/mail/domains/" .mailDomainPatch,
    under "DELETE" "/api/mail/domains/" .mailDomainsUnderDelete,
    under "PATCH" "/api/mail/domains/" .mailDomainPatchTransactional,
    under "GET" "/api/sites/" .sitesUnderGet,
    under "POST" "/api/sites/" .sitesUnderPost,
    under "PATCH" "/api/mail/mailboxes/" .mailMailboxesUnderPatch,
    under "POST" "/api/mail/mailboxes/" .mailMailboxesUnderPost,
    under "DELETE" "/api/mail/mailboxes/" .mailMailboxesUnderDelete,
    under "DELETE" "/api/mail/aliases/" .mailAliasesUnderDelete,
    under "PATCH" "/api/mail/aliases/" .mailAliasesUnderPatch,
    exact "GET" "/api/mail/status" .mailStatusGet,
    exact "GET" "/api/mail/health" .mailHealthGet,
    exact "POST" "/api/mail/activate" .mailActivatePost,
    exact "POST" "/api/mail/deactivate" .mailDeactivatePost,
    exact "POST" "/api/mail/regenerate" .mailRegeneratePost,
    exact "POST" "/api/mail/reload" .mailReloadPost,
    exact "POST" "/api/mail/recover" .mailRecoverPost,
    exact "GET" "/api/mail/smarthost" .mailSmarthostGet,
    exact "POST" "/api/mail/smarthost" .mailSmarthostPost,
    exact "GET" "/api/migration/vesta/backups" .migrationVestaBackupsGet,
    exact "POST" "/api/migration/vesta/inspect" .migrationVestaInspectPost,
    exact "POST" "/api/migration/vesta/create-site" .migrationVestaCreateSitePost,
    exact "POST" "/api/migration/vesta/import-files" .migrationVestaImportFilesPost,
    exact "POST" "/api/migration/vesta/import-sql" .migrationVestaImportSqlPost,
    exact "POST" "/api/migration/vesta/migrate" .migrationVestaMigratePost,
    exact "GET" "/api/access/sftp/users" .sftpUsersGet,
    under "GET" "/api/access/sftp/users/" .sftpUserGet,
    exact "POST" "/api/access/sftp/users" .sftpUsersPost,
    under "PATCH" "/api/access/sftp/users/" .sftpUserPatch,
    under "DELETE" "/api/access/sftp/users/" .sftpUserDelete,
    under "POST" "/api/access/sftp/users/" .sftpKeysGrantsPost,
    under "GET" "/api/access/sftp/users/" .sftpKeysGet,
    under "PATCH" "/api/access/sftp/users/" .sftpKeyPatch,
    under "DELETE" "/api/access/sftp/users/" .sftpKeyDelete,
    under "GET" "/api/access/sftp/users/" .sftpGrantsGet,
    under "PATCH" "/api/access/sftp/users/" .sftpGrantPatch,
    under "DELETE" "/api/access/sftp/users/" .sftpGrantDelete,
    exact "GET" "/api/access/sftp/status" .sftpStatusGet,
    exact "POST" "/api/access/sftp/reconcile" .sftpReconcilePost ]

end ContainerCP.Api
