import Replicant.Live.ConvergenceTheorems
import Replicant.Live.ProviderTheorems
import Replicant.Managed.CatchUpTheorems
import Replicant.Managed.CreationTheorems
import Replicant.Managed.DeviceRefreshTheorems
import Replicant.Managed.EvidenceTheorems
import Replicant.Managed.FlightTheorems
import Replicant.Managed.HistoryTheorems
import Replicant.Managed.LaneTheorems
import Replicant.Managed.Pagination
import Replicant.Managed.ReconciliationTheorems
import Replicant.Managed.RefreshCancelTheorems
import Replicant.Managed.Watch
import Replicant.Mining.TransportCapacity
import Replicant.Printing.DependenciesTheorems
import Replicant.Raw.ScheduleTheorems
import Replicant.Raw.SharedLedger
import Replicant.Runtime.Components
import Replicant.Runtime.RouteImprovement
import Replicant.Server.ActionsTheorems
import Replicant.Server.AutomationTheorems
import Replicant.Server.EventTriggersTheorems
import Replicant.Supervisor.CancelTheorems
import Replicant.Transport.DeliveryTheorems
import Replicant.Web.QueryCacheTheorems
import Replicant.Workflow.CapacityTheorems
import Replicant.Workflow.ClaimLaws
import Replicant.Workflow.PruningTheorems
import Replicant.Workflow.RunTheorems
import Replicant.Workflow.Watermark
