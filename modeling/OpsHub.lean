import OpsHub.Lib.Runs
import OpsHub.Lib.Table
import OpsHub.Lib.Outcome
import OpsHub.Platform.Errors
import OpsHub.Requests.Types
import OpsHub.Requests.Delegation
import OpsHub.Requests.Engine
import OpsHub.Requests.Transitions
import OpsHub.Requests.Segregation
import OpsHub.Requests.Chain
import OpsHub.Domain.Tables
import OpsHub.Domain.TypeDefs
import OpsHub.Requests.Concurrent
import OpsHub.Access.ConcurrentGrants
import OpsHub.Domain.Linked
import OpsHub.Domain.InStep
import OpsHub.Domain.ServicesInStep
import OpsHub.Access.TwoApprovals
import OpsHub.Identity.EntraAccounts
import OpsHub.Identity.EntraLogin
import OpsHub.Lib.Latest
import OpsHub.Identity.Sessions
import OpsHub.Identity.Rotation
import OpsHub.Identity.Theft
import OpsHub.Identity.CutOff
import OpsHub.Access.Authz
import OpsHub.Access.Leavers
import OpsHub.Outbox.Relays
import OpsHub.Outbox.RelayWakes
import OpsHub.Outbox.Deliveries
import OpsHub.Outbox.Subscribers
import OpsHub.Outbox.Backlog
import OpsHub.Outbox.Backoff
import OpsHub.Outbox.DomainEvents
import OpsHub.Notifications.ExactlyOnce
import OpsHub.Requests.EventLog
import OpsHub.Domain.LeaveOverlap
import OpsHub.Assets.Custody
import OpsHub.Access.GrantCover
import OpsHub.Access.Administration
import OpsHub.Access.Escalation
import OpsHub.Access.CacheCoherence
import OpsHub.License.LicenseService
import OpsHub.License.Seats
import OpsHub.License.Utilization
import OpsHub.RateLimit.SlidingWindow
import OpsHub.Lib.Keyed
import OpsHub.RateLimit.RateLimitGuard
import OpsHub.RateLimit.Quotas
import OpsHub.Lib.Json
import OpsHub.Platform.Idempotency
import OpsHub.Platform.CacheGate
import OpsHub.Domain.Submission
import OpsHub.Requests.ExpiryCron
import OpsHub.Identity.RefreshFailure
import OpsHub.Access.WholeCalls
import OpsHub.Access.RoleClaims
import OpsHub.Storage.StorageService
import OpsHub.Storage.FileLifecycle
import OpsHub.Requests.Delegates
import OpsHub.Requests.ApprovalAudit
import OpsHub.Requests.SlaBreach
import OpsHub.Requests.SlaSweeps
import OpsHub.Platform.Replays
import OpsHub.Identity.Logout
import OpsHub.Identity.AccessTokens
import OpsHub.Storage.OrphanedUploads
import OpsHub.Storage.Undisturbed
import OpsHub.Storage.FileLinks
import OpsHub.Storage.LastingLinks
import OpsHub.Domain.Ownership
import OpsHub.Ai.AiService
import OpsHub.Ai.Boundaries
import OpsHub.Requests.ChainLength
import OpsHub.Compliance.ComplianceService
import OpsHub.Access.ApprovedGrant
import OpsHub.Lib.Cuts
import OpsHub.Assets.AssetEvents
import OpsHub.Access.RoleSync
import OpsHub.Access.GrantEffect
import OpsHub.Identity.SsoRoles
import OpsHub.Access.PermissionCheck
import OpsHub.Notifications.Preferences
import OpsHub.Compliance.GraphSync
import OpsHub.Identity.TokenLifetime
import OpsHub.Requests.FinalApprovals
import OpsHub.Requests.Inbox
import OpsHub.Notifications.Listing
import OpsHub.Outbox.EmailScheduler
import OpsHub.RateLimit.LoginThrottle
import OpsHub.Notifications.EmailOptOut
import OpsHub.Notifications.PubSub
import OpsHub.Notifications.SseStream
import OpsHub.Compliance.DeltaSync
import OpsHub.Compliance.ShadowIt
import OpsHub.Compliance.Rescans
import OpsHub.Compliance.SoftwareCatalog
import OpsHub.SecurityPosture.SecureScore
import OpsHub.SecurityPosture.BaselineChecks
import OpsHub.Lib.Regex
import OpsHub.Lib.Removal
import OpsHub.Platform.Sanitize
import OpsHub.Lib.JsonStrings
import OpsHub.Platform.SanitizationPipe
import OpsHub.Catalog.CatalogService
import OpsHub.Requests.ApprovalAuthority
import OpsHub.Catalog.ApprovalPermission
import OpsHub.Ai.ToolInputs
import OpsHub.Ai.Conversation
import OpsHub.Lib.FilterLimit
import OpsHub.Ai.EmployeeSearch
import OpsHub.Lib.Numerals
import OpsHub.Lib.Timestamps
import OpsHub.Domain.ShiftLogs
import OpsHub.Lib.Urls
import OpsHub.Storage.StorageKeys
import OpsHub.Lib.Purge
import OpsHub.Lib.Base64
import OpsHub.Lib.Utf8
import OpsHub.Lib.Keyset
import OpsHub.Lib.Seeding
import OpsHub.Requests.DelegationPurge
import OpsHub.Audit.AuditLogs
import OpsHub.Domain.Timesheets
import OpsHub.Platform.Pagination
import OpsHub.Access.Seed
import OpsHub.Access.SeedAgain
import OpsHub.Requests.Reports
import OpsHub.Access.GrantRevocation
import OpsHub.Notifications.ReadState
