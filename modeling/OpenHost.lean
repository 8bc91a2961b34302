import OpenHost.Apps.Exclusion
import OpenHost.Apps.Images
import OpenHost.Apps.Lifecycle
import OpenHost.Apps.Links
import OpenHost.Apps.Promotion
import OpenHost.Apps.Quiesce
import OpenHost.Apps.Recovery
import OpenHost.Apps.Removal
import OpenHost.Apps.Rename
import OpenHost.Apps.RenameUndone
import OpenHost.Apps.Renamed
import OpenHost.Apps.StartupSweep
import OpenHost.Apps.State
import OpenHost.Apps.Steps
import OpenHost.Apps.Worker
import OpenHost.Archive.Configure
import OpenHost.Archive.FailOpen
import OpenHost.Archive.Frames
import OpenHost.Archive.JuiceFS
import OpenHost.Archive.Migration
import OpenHost.Archive.Reclaim
import OpenHost.Archive.ReclaimBatches
import OpenHost.Archive.Startup
import OpenHost.Archive.State
import OpenHost.Archive.VolumeName
import OpenHost.Archive.ZoneVolume
import OpenHost.Containers.ArchiveTier
import OpenHost.Containers.Launch
import OpenHost.Containers.PathVariables
import OpenHost.Dns.Failures
import OpenHost.Dns.Provider
import OpenHost.Dns.Schedule
import OpenHost.Dns.Serials
import OpenHost.Domains.Hosts
import OpenHost.Domains.Operations
import OpenHost.Domains.Primary
import OpenHost.Domains.State
import OpenHost.Install.DefaultAppRetries
import OpenHost.Install.DefaultApps
import OpenHost.Install.Deploy
import OpenHost.Install.Distinct
import OpenHost.Install.Ports
import OpenHost.Install.Reload
import OpenHost.Install.Reloaded
import OpenHost.Install.RequestedPorts
import OpenHost.Install.ResolvedPorts
import OpenHost.Install.RetryConnection
import OpenHost.Install.Sync
import OpenHost.Install.Tables
import OpenHost.Library.Bcrypt
import OpenHost.Library.Casing
import OpenHost.Library.Crash
import OpenHost.Library.Fields
import OpenHost.Library.Hex
import OpenHost.Library.Hysteresis
import OpenHost.Library.Json
import OpenHost.Library.JsonDumps
import OpenHost.Library.JsonLines
import OpenHost.Library.JsonReads
import OpenHost.Library.Lines
import OpenHost.Library.Pool
import OpenHost.Library.PosixPath
import OpenHost.Library.Proc
import OpenHost.Library.Relational
import OpenHost.Library.Replace
import OpenHost.Library.Runs
import OpenHost.Library.Script
import OpenHost.Library.SerialNumber
import OpenHost.Library.Sessions
import OpenHost.Library.Text
import OpenHost.Update.SeedDomains
import OpenHost.Library.Traces
import OpenHost.Library.Transactions
import OpenHost.Library.Url
import OpenHost.Library.Utf8
import OpenHost.Library.Walks
import OpenHost.Library.Whatwg
import OpenHost.Manifest.Review
import OpenHost.Manifest.Typed
import OpenHost.Monitoring.MemoryGuard
import OpenHost.OAuth.Router
import OpenHost.Services.Defaults
import OpenHost.Services.Operations
import OpenHost.Services.Permissions
import OpenHost.Services.Resolve
import OpenHost.Services.ServiceUrls
import OpenHost.Services.State
import OpenHost.Swap.Fstab
import OpenHost.Swap.SwapFile
import OpenHost.Tls.CertFiles
import OpenHost.Tls.Issuance
import OpenHost.Tls.Polling
import OpenHost.Tls.Renewal
import OpenHost.Update.ApplyLock
import OpenHost.Update.MigrationLog
import OpenHost.Update.Migrations
import OpenHost.Update.PortAcquisition
import OpenHost.Update.Progress
import OpenHost.Update.Repo
import OpenHost.Update.SetRemote
import OpenHost.Update.StartApply
import OpenHost.Update.StepAgreement
import OpenHost.Update.UniformCertificateRuns
import OpenHost.Update.Walk
import OpenHost.Upstream.GithubGuard
import OpenHost.Upstream.PinnedBranch
import OpenHost.Upstream.RepoUrl
import OpenHost.Upstream.UpdateReviewed
import OpenHost.Versioned.AppIds
import OpenHost.Versioned.Runner
import OpenHost.Web.AppHosts
import OpenHost.Web.Auth
import OpenHost.Web.CaddyProcess
import OpenHost.Web.Cookies
import OpenHost.Web.Credentials
import OpenHost.Web.Dispatch
import OpenHost.Web.DomainRequests
import OpenHost.Web.GrantUrl
import OpenHost.Web.Headers
import OpenHost.Web.Hosts
import OpenHost.Web.Identity
import OpenHost.Web.LoginRedirect
import OpenHost.Web.OperationLocks
import OpenHost.Web.Origin
import OpenHost.Web.Password
import OpenHost.Web.Preflight
import OpenHost.Web.Proxy
import OpenHost.Web.PublicOnly
import OpenHost.Web.Request
import OpenHost.Web.ServedDomains
import OpenHost.Web.ServiceCall
import OpenHost.Web.Setup
import OpenHost.Web.UrlPieces
import OpenHost.Web.UrlSplit
