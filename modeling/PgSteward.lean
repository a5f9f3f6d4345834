import PgSteward.Access.Basic
import PgSteward.Access.Convergence
import PgSteward.Access.Grants
import PgSteward.Access.Plan
import PgSteward.Access.RequiredRoles
import PgSteward.CommandLine.Options
import PgSteward.CommandLine.Reader
import PgSteward.Controller.Database
import PgSteward.Controller.HostCredentials
import PgSteward.Controller.ServiceUser
import PgSteward.Controller.Services
import PgSteward.Controller.User
import PgSteward.Definition.Resources
import PgSteward.Definition.Schema
import PgSteward.Error
import PgSteward.Host.Entry
import PgSteward.Host.Selection
import PgSteward.Instant.Basic
import PgSteward.Instant.Printer
import PgSteward.Instant.Reader
import PgSteward.Json.Decode
import PgSteward.Json.Fraction
import PgSteward.Json.Merge
import PgSteward.Json.Patch
import PgSteward.Json.Printer
import PgSteward.Json.Reader
import PgSteward.Json.Scan
import PgSteward.Json.Value
import PgSteward.Kube.Client
import PgSteward.Kube.Error
import PgSteward.Kube.Object
import PgSteward.Kube.Request
import PgSteward.Kube.Store
import PgSteward.Main
import PgSteward.NameMap
import PgSteward.Policy.Aws
import PgSteward.Policy.Document
import PgSteward.Policy.Error
import PgSteward.Policy.Memory
import PgSteward.Policy.Reader
import PgSteward.Policy.Shard
import PgSteward.Policy.Store
import PgSteward.Postgres.Catalog
import PgSteward.Postgres.Cluster
import PgSteward.Postgres.Command
import PgSteward.Postgres.Connection
import PgSteward.Postgres.Error
import PgSteward.Postgres.Identifier
import PgSteward.Postgres.Provision
import PgSteward.Postgres.Server
import PgSteward.Postgres.Statement
import PgSteward.Program
import PgSteward.Proofs.NameMaps
import PgSteward.Proofs.PolicyMemoryCalls
import PgSteward.Proofs.PolicyNumbers
import PgSteward.Proofs.ProgramRuns
import PgSteward.Proofs.ShardCalls
import PgSteward.Proofs.ShardMirror
import PgSteward.Proofs.ShardSearch
import PgSteward.Reference.Basic
import PgSteward.Reference.Memory
import PgSteward.Reference.Resolver
import PgSteward.Rehearsal.Event
import PgSteward.Rehearsal.Fault
import PgSteward.Rehearsal.Resync
import PgSteward.Rehearsal.World
import PgSteward.Resource.Database
import PgSteward.Resource.HostCredentials
import PgSteward.Resource.ServiceUser
import PgSteward.Resource.User
import PgSteward.Resync.Queue
import PgSteward.Resync.Ticker
import PgSteward.Settings
import PgSteward.Text.Base64
import PgSteward.Text.Blank
import PgSteward.Text.Cut
import PgSteward.Text.Numeral
import PgSteward.Text.Percent
import PgSteward.Text.Printable
import PgSteward.Text.Quoted
import PgSteward.Text.SingleQuoted
import PgSteward.Text.Utf8
import PgSteward.Yaml.Block
import PgSteward.Proofs.ShardRuns
import PgSteward.Proofs.SpacedWords
import PgSteward.Proofs.StatementReading
import PgSteward.Proofs.ClusterCalls
import PgSteward.Proofs.CatalogCommands
import PgSteward.Proofs.ClusterRoles
import PgSteward.Proofs.NeededRoles
import PgSteward.Proofs.ConvergenceRuns
import PgSteward.Proofs.GrantRuns
import PgSteward.Proofs.ProvisionSteps
import PgSteward.Proofs.ProvisionRuns
import PgSteward.Proofs.ProvisionRetry
import PgSteward.Proofs.ProvisionRepair
import PgSteward.Proofs.SchemaGrants
import PgSteward.Proofs.EffectiveAccess
import PgSteward.Proofs.LiteralReading
import PgSteward.Proofs.RelatedWork
import PgSteward.Proofs.WatchedServer
import PgSteward.Proofs.SealedStatements
import PgSteward.Proofs.RoleOutcomes
import PgSteward.Proofs.RoleExchange
import PgSteward.Proofs.PlanLookups
import PgSteward.Proofs.LostLookups
import PgSteward.Proofs.UserEvents
import PgSteward.Proofs.SyncExchange
import PgSteward.Proofs.EncodedBytes
import PgSteward.Proofs.PrintedJson
import PgSteward.Proofs.PolicyText
import PgSteward.Proofs.InstantText
import PgSteward.Proofs.WireForms
import PgSteward.Proofs.ShardRepair
import PgSteward.Proofs.RepeatedSync
import PgSteward.Proofs.StoreContents
import PgSteward.Proofs.ShardRemoval
import PgSteward.Proofs.ShardRetries
import PgSteward.Proofs.FlakyStore
import PgSteward.Proofs.ShardInvariants
import PgSteward.Proofs.VersionPile
import PgSteward.Proofs.ShardContract
import PgSteward.Proofs.PasswordReading
import PgSteward.Proofs.ProvisionChanges
import PgSteward.Proofs.ProvisionAgain
import PgSteward.Proofs.ProvisionRecord
import PgSteward.Proofs.ProvisionBuild
import PgSteward.Proofs.AdminRole
import PgSteward.Proofs.ClusterRecord
import PgSteward.Proofs.ConvergenceFrame
import PgSteward.Proofs.PreparedRoles
import PgSteward.Proofs.IndependentHosts
import PgSteward.Proofs.InvalidDatabases
import PgSteward.Proofs.PlanParts
import PgSteward.Proofs.RoleJoin
import PgSteward.Proofs.CollectedErrors
import PgSteward.Proofs.ErrorReports
import PgSteward.Proofs.SafeNames
import PgSteward.Proofs.CombinedErrors
import PgSteward.Proofs.RehearsedDatabases
import PgSteward.Proofs.DatabaseStatuses
import PgSteward.Proofs.RoleLists
import PgSteward.Proofs.PasswordsInForce
import PgSteward.Proofs.SeparateLogins
import PgSteward.Proofs.HostMatching
import PgSteward.Proofs.ObjectLookups
import PgSteward.Proofs.HostEntries
import PgSteward.Proofs.ConnectionSettings
import PgSteward.Proofs.PolicyOrder
import PgSteward.Proofs.ListedPolicies
import PgSteward.Proofs.PagedListings
