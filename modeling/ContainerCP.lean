import ContainerCP.Access.Base64Decode
import ContainerCP.Access.BindUnmount
import ContainerCP.Access.Getfacl
import ContainerCP.Access.GrantEndpoints
import ContainerCP.Access.GrantReachability
import ContainerCP.Access.KeyBlob
import ContainerCP.Access.ManagedPathValidator
import ContainerCP.Access.MountInspector
import ContainerCP.Access.OptionInjection
import ContainerCP.Access.RequestBodies
import ContainerCP.Access.SftpDurability
import ContainerCP.Access.SftpEndpoints
import ContainerCP.Access.SftpHost
import ContainerCP.Access.SftpKeys
import ContainerCP.Access.SftpServices
import ContainerCP.Access.SiteMounts
import ContainerCP.Access.SshKeyValidator
import ContainerCP.Access.SshdConfigWriter
import ContainerCP.Access.StartupMounts
import ContainerCP.Access.SystemAccountCommandRunner
import ContainerCP.Api.ApiServer
import ContainerCP.Api.AuthenticationGate
import ContainerCP.Api.JsonExtraction
import ContainerCP.Api.JsonFormatter
import ContainerCP.Api.JsonText
import ContainerCP.Api.Passwords
import ContainerCP.Api.Request
import ContainerCP.Api.RequestFraming
import ContainerCP.Api.Router
import ContainerCP.Api.Routes
import ContainerCP.Api.StaticFiles
import ContainerCP.Api.WebServer
import ContainerCP.Auth.AuthService
import ContainerCP.Backups.ArchiveOwnership
import ContainerCP.Backups.BackupJobService
import ContainerCP.Backups.BackupService
import ContainerCP.Backups.ManifestText
import ContainerCP.Backups.RestoreTruth
import ContainerCP.Backups.SiteTree
import ContainerCP.Concurrency.Interleaving
import ContainerCP.Control.Procedure
import ContainerCP.Control.Transcript
import ContainerCP.Control.Walk
import ContainerCP.Daemon.CommandProtocol
import ContainerCP.Data.FileActions
import ContainerCP.Data.KeyedLines
import ContainerCP.Data.Nesting
import ContainerCP.Data.Registry
import ContainerCP.Data.Rejection
import ContainerCP.Data.Rows
import ContainerCP.Data.Store
import ContainerCP.Data.Table
import ContainerCP.Database.CreationAllOrNothing
import ContainerCP.Database.CredentialRotation
import ContainerCP.Database.CredentialTransport
import ContainerCP.Database.DumpNames
import ContainerCP.Database.DumpService
import ContainerCP.Database.GrantIsolation
import ContainerCP.Database.ImportPolicy
import ContainerCP.Database.LifecycleService
import ContainerCP.Database.ManagedDrop
import ContainerCP.Database.RotationLock
import ContainerCP.Database.RotationTruth
import ContainerCP.Database.StatementTexts
import ContainerCP.Dns.CidrMatch
import ContainerCP.Dns.FirstMatch
import ContainerCP.Dns.Hostnames
import ContainerCP.Dns.SpfAnalyzer
import ContainerCP.Dns.SpfBounds
import ContainerCP.Dns.SpfVerdict
import ContainerCP.Jobs.ExactlyOnce
import ContainerCP.Jobs.JobExecutor
import ContainerCP.Jobs.JobManager
import ContainerCP.Mail.ApplyRollback
import ContainerCP.Mail.CredentialMap
import ContainerCP.Mail.DockerMailProvider
import ContainerCP.Mail.MailConfig
import ContainerCP.Mail.MapsAgree
import ContainerCP.Mail.SiteMailCredentials
import ContainerCP.Migration.DryRunAgreement
import ContainerCP.Migration.DumpLookup
import ContainerCP.Migration.FilesImport
import ContainerCP.Migration.FilesSafety
import ContainerCP.Migration.ImportSafety
import ContainerCP.Migration.Inspection
import ContainerCP.Migration.MigrationMarker
import ContainerCP.Migration.SqlImport
import ContainerCP.Migration.TarScreening
import ContainerCP.Operations.CleanupIsolation
import ContainerCP.Operations.CreationUndo
import ContainerCP.Operations.Docker
import ContainerCP.Operations.RemovalIntegrity
import ContainerCP.Operations.SiteCreate
import ContainerCP.Operations.SiteRemove
import ContainerCP.Posix.Acl
import ContainerCP.Posix.Administration
import ContainerCP.Posix.Arguments
import ContainerCP.Posix.Filesystem
import ContainerCP.Posix.LexicalPath
import ContainerCP.Posix.Lookup
import ContainerCP.Posix.NameQuoting
import ContainerCP.Posix.Process
import ContainerCP.Proxy.ConfigDirectory
import ContainerCP.Proxy.NginxProxyProvider
import ContainerCP.Proxy.ProxyConfigBuilder
import ContainerCP.Proxy.RecoveryExclusion
import ContainerCP.Proxy.RecoveryManager
import ContainerCP.Proxy.RouteCoexistence
import ContainerCP.Proxy.RouteFrames
import ContainerCP.Proxy.SqlConsoleRoutes
import ContainerCP.Runtime.PortManager
import ContainerCP.Security.PasswordHasher
import ContainerCP.Security.SecureRandom
import ContainerCP.Sql.Pattern
import ContainerCP.Sql.Replacement
import ContainerCP.Sql.Script
import ContainerCP.Sql.Server
import ContainerCP.Sql.Statements
import ContainerCP.Sql.StringLiteral
import ContainerCP.SqlConsole.ConsoleRuns
import ContainerCP.SqlConsole.ConsoleService
import ContainerCP.SqlConsole.SessionManager
import ContainerCP.SqlConsole.SessionRuns
import ContainerCP.SqlConsole.SessionStore
import ContainerCP.SqlConsole.StoreFile
import ContainerCP.Ssl.AcmeSignature
import ContainerCP.Ssl.AtomicReplacement
import ContainerCP.Ssl.CertificateMetadata
import ContainerCP.Ssl.CertificateStore
import ContainerCP.Ssl.LayoutMigration
import ContainerCP.Ssl.MetadataRoundTrip
import ContainerCP.Ssl.MetadataWalk
import ContainerCP.Ssl.RenewalJob
import ContainerCP.Ssl.RenewalScheduler
import ContainerCP.Storage.ActivationGrammar
import ContainerCP.Storage.ActivationHandover
import ContainerCP.Storage.ActivationState
import ContainerCP.Storage.ConnectionPool
import ContainerCP.Storage.ConnectionPoolSafety
import ContainerCP.Storage.Fields
import ContainerCP.Storage.LegacyArchive
import ContainerCP.Storage.LineParser
import ContainerCP.Storage.ManifestParser
import ContainerCP.Storage.MigrationEngine
import ContainerCP.Storage.MigrationInvariants
import ContainerCP.Storage.MigrationOrchestrator
import ContainerCP.Storage.MigrationRecovery
import ContainerCP.Storage.MigrationRuns
import ContainerCP.Storage.ReadRotation
import ContainerCP.Storage.Records
import ContainerCP.Storage.SchemaMigrations
import ContainerCP.Storage.SchemaRecovery
import ContainerCP.Storage.SqliteSnapshotReader
import ContainerCP.Storage.SqliteStorage
import ContainerCP.Storage.SqliteSync
import ContainerCP.Storage.SqliteTables
import ContainerCP.Storage.StorageCanonicalizer
import ContainerCP.Storage.TableReplacement
import ContainerCP.Storage.TxtRoundTrip
import ContainerCP.Storage.TxtStorage
import ContainerCP.Template.TemplateEngine
import ContainerCP.Text.Asn1
import ContainerCP.Text.Base64
import ContainerCP.Text.Bytes
import ContainerCP.Text.Calendar
import ContainerCP.Text.Decimal
import ContainerCP.Text.Framing
import ContainerCP.Text.Json
import ContainerCP.Text.JsonGrammar
import ContainerCP.Text.JsonObject
import ContainerCP.Text.JsonScan
import ContainerCP.Text.JsonSearch
import ContainerCP.Text.LineSearch
import ContainerCP.Text.Lines
import ContainerCP.Text.OptionFile
import ContainerCP.Text.PhpString
import ContainerCP.Text.PhpTokens
import ContainerCP.Text.Placeholders
import ContainerCP.Text.QuotedPieces
import ContainerCP.Text.Streams
import ContainerCP.Wordpress.Arguments
import ContainerCP.Wordpress.AtomicWriter
import ContainerCP.Wordpress.CliService
import ContainerCP.Wordpress.ConditionalDetection
import ContainerCP.Wordpress.ConfigDetector
import ContainerCP.Wordpress.ConfigFile
import ContainerCP.Wordpress.ConfigUpdater
import ContainerCP.Wordpress.ControlTracking
import ContainerCP.Wordpress.FileReplacement
import ContainerCP.Wordpress.Lexing
import ContainerCP.Wordpress.LiteralReplacement
import ContainerCP.Wordpress.LiteralRoundTrip
import ContainerCP.Wordpress.PhpDefineScanner
import ContainerCP.Wordpress.RunnerOwnership
import ContainerCP.Wordpress.TextInsertion
import ContainerCP.Wordpress.UpdateComposition
import ContainerCP.Wordpress.UpdateInspection
