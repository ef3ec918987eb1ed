import Kiln.Operations.LanesOrder
import Kiln.Operations.ReentrantStays
import Kiln.Hearth.Lanes
import Kiln.Hearth.AccessDelivery
import Kiln.Hearth.BackupRetention
import Kiln.Relay.PlanCoverage
import Kiln.Relay.JournalReplies
import Kiln.Contracts.SnapshotFidelity
import Kiln.Relay.BrowserFloors
import Kiln.Hearth.RelayTruth
import Kiln.Relay.ScheduleDeployments
import Kiln.Relay.ConnectionChoices
import Kiln.Relay.InstanceRestore
import Kiln.Relay.ScheduleCommands
import Kiln.Relay.ScheduleResults
import Kiln.Relay.FreezesKept
import Kiln.Relay.TarRestoreSafe
import Kiln.Relay.ScheduleLaunchedOnce
import Kiln.Relay.NbtReproduced
import Kiln.Relay.TarStagingInside
import Kiln.Relay.TarBackupRestores
import Kiln.Relay.TransferPullsKept
import Kiln.Relay.TransferSourcesKept
import Kiln.Relay.PackedInstalls
import Kiln.Relay.RuntimeRecoveryKept
import Kiln.Relay.UpdateLocks
import Kiln.Relay.ContainerUpdatesSafe
import Kiln.Relay.UpdateCleanupSpares
import Kiln.Hearth.HostnamesOwned
import Kiln.Relay.SqliteBrowserEdits
import Kiln.Hearth.DurableStartsOnce
import Kiln.Hearth.InstanceLifecycles
import Kiln.Hearth.RequestRateLimit
import Kiln.Relay.PrivateNetwork
import Kiln.Hearth.PassthroughLimits
import Kiln.Relay.SnapshotHubSteady
import Kiln.Hearth.BrowserCredentials
import Kiln.Hearth.BrowserCredentialsSettled
import Kiln.Relay.ConsolePages
import Kiln.Relay.PortAllocationsKept
import Kiln.Relay.SqlScriptsWhole
import Kiln.Contracts.PermissionCatalogChecked
import Kiln.Contracts.SnapshotControlDelta
import Kiln.Relay.BackupClaimsOwned
import Kiln.Relay.BrowserOutboxKept
import Kiln.Operations.LanesBusy
import Kiln.Relay.FileScansWhole
import Kiln.Hearth.PermissionChecks
