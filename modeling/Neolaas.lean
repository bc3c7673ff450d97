import Neolaas.RendezvousHasher
import Neolaas.Events
import Neolaas.MachineActor
import Neolaas.LabelledRuns
import Neolaas.MachineLifecycle
import Neolaas.OperatorCrds
import Neolaas.SpecRoundTrip
import Neolaas.OperatorSync
import Neolaas.ChangeLog
import Neolaas.Discovery
import Neolaas.PeerFeed
import Neolaas.AtomicProgram
import Neolaas.MachineManager
import Neolaas.ManagerSteps
import Neolaas.ManagerSettles
import Neolaas.NodeSystem
import Neolaas.NodeSteps
import Neolaas.QuiescentOwnership
import Neolaas.ManagerCache
import Neolaas.MachineFeed
import Neolaas.ManagerRuns
import Neolaas.ManagerBookkeeping
import Neolaas.ActorGauge
import Neolaas.RestartLimit
import Neolaas.SpecAgreement
import Neolaas.ManagerAlone
import Neolaas.RebalanceReplay
import Neolaas.JoinLeave
import Neolaas.Registration
import Neolaas.DiscoveryController
import Neolaas.Departure
import Neolaas.StringSlices
import Neolaas.RestartBackoff
import Neolaas.DiscoveredPeers
import Neolaas.PeerConnections
import Neolaas.PeerMonitoring
import Neolaas.DiscoveryBatches
import Neolaas.InitialSync
import Neolaas.MaintenanceLoop
import Neolaas.PeerHistory
import Neolaas.BootstrapTopology
import Neolaas.PeerHealth
import Neolaas.ClusterBookings
import Neolaas.ActorAsks
import Neolaas.ControllerLifecycle
import Neolaas.EventReplay
import Neolaas.HealthProtocol
import Neolaas.MachinePlacement
import Neolaas.MachineStatuses
import Neolaas.OperatorPlacement
import Neolaas.OperatorReconciles
import Neolaas.P2PEndpoints
import Neolaas.PeerViews
import Neolaas.ClusterMembership
