import HostingPlatform.Auth.Descent
import HostingPlatform.Auth.PasskeyMode
import HostingPlatform.Auth.TwoFactor
import HostingPlatform.Storage.Resize
import HostingPlatform.Storage.Suspension
import HostingPlatform.Storage.ArchivedExit
import HostingPlatform.Storage.ArchiveSafety
import HostingPlatform.Storage.WorkloadsKept
import HostingPlatform.TenantLifecycle.Aborts
import HostingPlatform.TenantLifecycle.Completion
import HostingPlatform.CustomDeployments.DocumentRules
import HostingPlatform.Tenants.Deletion
import HostingPlatform.Tenants.Patch
import HostingPlatform.TenantBundles.ClusterConcurrency
import HostingPlatform.TenantBundles.StatusWrites
import HostingPlatform.BackupRestore.Ownership
import HostingPlatform.BackupRestore.StorageState
import HostingPlatform.BackupRestore.CartSafety
import HostingPlatform.Tenants.LastAdmin
import HostingPlatform.TenantBundles.ScheduleOutcomes
import HostingPlatform.TenantBundles.GlobalWaves
import HostingPlatform.Sftp.Permissions
import HostingPlatform.TenantBundles.MailboxHistory
import HostingPlatform.TenantBundles.MailRoundTrip
import HostingPlatform.NodeTerminal.Reapers
import HostingPlatform.Sftp.Accounting
import HostingPlatform.BackupRcloneShim.EnvFile
import HostingPlatform.ResourceQuantities.Agreement
import HostingPlatform.IngressRoutes.Tenancy
import HostingPlatform.IngressRoutes.RouteDns
import HostingPlatform.IngressAuth.FailClosed
import HostingPlatform.DnsRecords.Reservation
import HostingPlatform.CronJobs.Executions
import HostingPlatform.Waf.Counting
import HostingPlatform.PrivateWorkers.Tunnels
import HostingPlatform.MailImapsync.Cycles
import HostingPlatform.Deployments.StatusWrites
import HostingPlatform.Deployments.Lifecycle
import HostingPlatform.Deployments.DbManager
import HostingPlatform.Deployments.HardDelete
import HostingPlatform.ResourceQuotas.Patches
import HostingPlatform.ProtectedDirs.Guarding
import HostingPlatform.CustomDeployments.Totality
import HostingPlatform.CustomDeployments.PodVolumes
import HostingPlatform.CustomDeployments.CycleSearch
import HostingPlatform.CustomDeployments.Update
import HostingPlatform.CustomDeployments.RealmGuard
import HostingPlatform.CustomDeployments.ImageReferences
import HostingPlatform.Firewall.CanonicalRange
import HostingPlatform.Firewall.ClaimedPeers
import HostingPlatform.Firewall.BanTimeouts
import HostingPlatform.Deployments.UpgradeChain
import HostingPlatform.TenantBundles.UploadToken
import HostingPlatform.Tenants.Listing
import HostingPlatform.Deployments.VersionOrder
import HostingPlatform.Storage.Measuring
import HostingPlatform.FileManager.RawWrites
import HostingPlatform.TenantBundles.ResticSemaphore
import HostingPlatform.FileManager.Overwriting
import HostingPlatform.TenantBundles.ResticDriver
import HostingPlatform.TenantLifecycle.IngressSuspend
import HostingPlatform.Js.Utf8
import HostingPlatform.Deployments.DatabaseDumps
import HostingPlatform.Deployments.QueryResults
