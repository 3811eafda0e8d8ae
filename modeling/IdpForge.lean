import IdpForge.TransitionSystem
import IdpForge.ScopeIssuance
import IdpForge.MatcherAgreement
import IdpForge.Router
import IdpForge.RouteAuthorization
import IdpForge.RbacTables
import IdpForge.ParentWalk
import IdpForge.Resolver
import IdpForge.ResolutionSteps
import IdpForge.PartialMap
import IdpForge.Revocation
import IdpForge.CacheCoherence
import IdpForge.RoleDeletion
import IdpForge.LeaderLease
import IdpForge.HealthAlerts
import IdpForge.AuditWriter
import IdpForge.AuditLog
import IdpForge.OidcProvider
import IdpForge.OidcSteps
import IdpForge.OidcScopes
import IdpForge.OidcTokens
import IdpForge.OidcConsent
import IdpForge.OidcSingleUse
import IdpForge.DeviceCheckin
import IdpForge.Users
import IdpForge.Accounts
import IdpForge.AccountSteps
import IdpForge.LoginDoors
import IdpForge.LoginLockout
import IdpForge.UsersSteps
import IdpForge.SecondFactor
import IdpForge.FactorRequests
import IdpForge.PasswordChanges
import IdpForge.ForcedPasswordChange
import IdpForge.Offboarding
import IdpForge.SessionLifetime
import IdpForge.PasswordOrigins
import IdpForge.Base64
import IdpForge.JsonText
import IdpForge.RealtimeHub
import IdpForge.SqlStatements
import IdpForge.AuditQuery
import IdpForge.AuditedRequests
import IdpForge.Migrations
import IdpForge.BootstrapRecovery
import IdpForge.RateLimit
import IdpForge.CredentialRaces
import IdpForge.LoginSequence
import IdpForge.WebAuthnCeremonies
import IdpForge.AccountSpelling
import IdpForge.ClimbOrder
import IdpForge.ResolutionOrder
import IdpForge.OidcCalls
import IdpForge.ClientCredentials
import IdpForge.RefreshRotation
import IdpForge.AuditBatches
import IdpForge.MemoryCache
import IdpForge.RedisCounters
import IdpForge.IpAllowlist
import IdpForge.HubWriters
import IdpForge.UserUpdate
import IdpForge.UrlQuery
import IdpForge.AuthorizeRedirect
import IdpForge.Paging
import IdpForge.Pages
import IdpForge.GoStrconv
import IdpForge.UpdateCheck
import IdpForge.GlobPattern
import IdpForge.PrefixDeletion
import IdpForge.PasswordClasses
import IdpForge.HostPort
import IdpForge.SameOrigin
import IdpForge.ServerConfig
import IdpForge.FirstOccurrence
import IdpForge.MaskedDsn
import IdpForge.JsonTree
import IdpForge.KeyFamilies
import IdpForge.SharedCache
import IdpForge.MachineKeys
import IdpForge.Enrolment
import IdpForge.UniqueRows
import IdpForge.Since
import IdpForge.UrlBase64
import IdpForge.SecurityKeyBytes
import IdpForge.SigningKeys
import IdpForge.ParentPath
import IdpForge.GroupHierarchy
import IdpForge.RealtimeClient
import IdpForge.ExternalDisclosure
import IdpForge.Readings
import IdpForge.UsageHistory
import IdpForge.SignedInApps
import IdpForge.UrlTemplate
import IdpForge.ConsoleCalls
import IdpForge.AnnouncementBell
import IdpForge.Discovery
