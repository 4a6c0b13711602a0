import ProxyPilot.Mock2.LockReservation
import ProxyPilot.Mock2.LockSweep
import ProxyPilot.Mock2.FenceIsolation
import ProxyPilot.Data.Table
import ProxyPilot.Transition.System
import ProxyPilot.Transition.Interrupted
import ProxyPilot.Storage.FileSystem
import ProxyPilot.Recovery.Interruption
import ProxyPilot.Runner.Finality
import ProxyPilot.Authority.SingleUse
import ProxyPilot.Broker.Enrollment
import ProxyPilot.Setup.Progress
import ProxyPilot.Mock2.BuildDrain
import ProxyPilot.Projects.Occurrences
import ProxyPilot.Coordinator.Gate
import ProxyPilot.Routes.Atomic
import ProxyPilot.Gateway.Exclusion
import ProxyPilot.Sso.Revocation
import ProxyPilot.Artifacts.Quotas
import ProxyPilot.Ledger.Accounts
import ProxyPilot.Routes.Tenancy
import ProxyPilot.Chat.Safety
import ProxyPilot.Lifecycle.Confirmed
import ProxyPilot.RestoreDb.Keys
import ProxyPilot.RestoreDb.Copies
import ProxyPilot.Vpn.Addresses
import ProxyPilot.Firewall.Panic
import ProxyPilot.Zpool.InUse
import ProxyPilot.Firewall.Lockout
import ProxyPilot.Zpool.Distinct
import ProxyPilot.Upload.Preserved
import ProxyPilot.AppStorage.Protected
import ProxyPilot.Data.Json
import ProxyPilot.Backup.TarRoundTrip
import ProxyPilot.Backup.RoundTrip
import ProxyPilot.Data.Utf8
import ProxyPilot.Data.Counting
import ProxyPilot.Cron.Matching
import ProxyPilot.Zfs.Destroy
import ProxyPilot.Zfs.Rollback
import ProxyPilot.Data.Decimal
import ProxyPilot.Data.Utf16
import ProxyPilot.Zfs.Canonical
import ProxyPilot.Zfs.Tokens
import ProxyPilot.Zpool.OsDisks
import ProxyPilot.Vpn.Reach
import ProxyPilot.RootRecovery.Plan
import ProxyPilot.RootRecovery.Confined
import ProxyPilot.Upload.Buffer
import ProxyPilot.Upload.Confined
import ProxyPilot.Sanoid.Policy
import ProxyPilot.Sanoid.Sections
import ProxyPilot.Sanoid.Agreement
import ProxyPilot.Ledger.Books
import ProxyPilot.Data.Ranges
import ProxyPilot.Routes.ReservedPorts
import ProxyPilot.Migration.Target
import ProxyPilot.Data.Text
import ProxyPilot.SshAccess.Keys
import ProxyPilot.Caddy.RouteGate
import ProxyPilot.Firewall.Discovery
import ProxyPilot.Coordinator.RunPolicy
import ProxyPilot.Projects.Calendar
import ProxyPilot.Projects.NextRun
import ProxyPilot.Data.JsonGrammar
import ProxyPilot.Broker.StrictJson
import ProxyPilot.Data.BigEndian
import ProxyPilot.Dns.Query
import ProxyPilot.Dns.Response
import ProxyPilot.Mock2.GateBattery
import ProxyPilot.Chat.Uncertain
import ProxyPilot.Chat.CycleSync
import ProxyPilot.Mock2.Usage
import ProxyPilot.Mock2.UsageTotals
import ProxyPilot.Data.Fields
import ProxyPilot.Mock2.SeedTar
import ProxyPilot.Mock2.SeedTarHeaders
import ProxyPilot.Mock2.SeedTarRoundTrip
import ProxyPilot.Data.Tokens
import ProxyPilot.Data.Blocks
import ProxyPilot.Caddy.EdgeOptions
import ProxyPilot.Caddy.EdgeStored
import ProxyPilot.Caddy.EdgeRender
import ProxyPilot.Caddy.EdgeContained
import ProxyPilot.Data.IpAddress
import ProxyPilot.Data.UrlSplit
import ProxyPilot.Gateway.UrlParts
import ProxyPilot.Gateway.UrlReread
import ProxyPilot.Gateway.UrlUnambiguous
import ProxyPilot.Data.Canonical
import ProxyPilot.Data.CanonicalRead
import ProxyPilot.Data.Chain
import ProxyPilot.Gateway.FileLedger
import ProxyPilot.Gateway.LedgerReopen
import ProxyPilot.Gateway.LedgerTamper
