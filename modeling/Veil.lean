import Veil.Library.HashTable
import Veil.Library.TreeDistance
import Veil.Library.Transition
import Veil.Library.WhileLoop
import Veil.Library.Connectivity
import Veil.Library.GatewayRouting
import Veil.Library.Bytes
import Veil.Library.BitString
import Veil.Library.Dendrogram
import Veil.Vid
import Veil.Frame
import Veil.RoutePacket
import Veil.Reroute
import Veil.Multipath
import Veil.Rendezvous
import Veil.GatewaySelection
import Veil.BuildRouteTable
import Veil.Forwarding
import Veil.RendezvousAgreement
import Veil.SpanningTreeState
import Veil.SpanningTree
import Veil.InterfaceTable
import Veil.NeighborTable
import Veil.RouteTable
import Veil.RouteSlots
import Veil.RouteRotation
import Veil.HostTable
import Veil.HostConsistency
import Veil.HostReverse
import Veil.ProcessAccessInfo
import Veil.AccessFallback
import Veil.Packet
import Veil.ProcessIP
import Veil.Encapsulation
import Veil.ProcessARP
import Veil.TimeToLive
import Veil.ReportOrder
import Veil.LocalTopo
import Veil.LearnedTopology
import Veil.Mobility
import Veil.NetworkTopo
import Veil.ProcessVCCSTAdSub
import Veil.Reassignment
import Veil.ReassignedRoutes
import Veil.ZeroVid
import Veil.VidNetwork
import Veil.VidCopies
import Veil.VidDelivery
import Veil.Clustering
import Veil.ClusterLoop
import Veil.Topology
import Veil.Assignment
import Veil.UniqueVids
import Veil.QueriedLevels
import Veil.Controller
import Veil.SimPy.Vid
import Veil.SimPy.VidAssignment
import Veil.SimPy.Clustering
import Veil.SimPy.ClusterLoop
import Veil.SimPy.RendezvousPoints
import Veil.SimPy.Switch
import Veil.SimPy.Rounds
import Veil.SimPy.SwitchRouting
import Veil.SimPy.Handling
import Veil.SimPy.LevelInvariant
import Veil.SimPy.FirstTables
import Veil.SimPy.LevelRun
import Veil.SimPy.LevelProgress
import Veil.SimPy.FillBuckets
import Veil.SimJava.Strings
import Veil.SimJava.RdvTable
import Veil.SimJava.Rendezvous
import Veil.SimJava.Replica
import Veil.SimJava.RemoteQuery
import Veil.SimJava.DataForwarding
import Veil.SimJava.LoopFreedom
import Veil.HostVids
import Veil.StringLength
import Veil.SimJava.PacketCodec
import Veil.FrameReads
import Veil.SimPy.Recursion
import Veil.DisposedOnce
import Veil.Subtrees
import Veil.Library.FailFast
import Veil.SimJava.RoutingTable
import Veil.SimJava.GatewayLists
import Veil.SimJava.TableUpdate
import Veil.SimJava.TableInvariant
import Veil.Library.FuelledCall
import Veil.SimJava.Failover
import Veil.SimJava.FailedNexthops
import Veil.Library.Lease
import Veil.Library.TimedRun
import Veil.SoftState
import Veil.HelloNetwork
import Veil.RouteLifetimes
import Veil.SpanningTreeConvergence
import Veil.ControlPlane
import Veil.Library.Draining
import Veil.ControlLifetimes
import Veil.ControlWalk
import Veil.ControlRounds
import Veil.ControlSteps
import Veil.ControlConvergence
import Veil.HostLearning
import Veil.HostNetwork
import Veil.HostOrigins
