import HotCounter.Foundation.Sums
import HotCounter.Counter.Types
import HotCounter.Counter.Strict
import HotCounter.Counter.Reserved
import HotCounter.Counter.Announcement
import HotCounter.Counter.Shared
import HotCounter.Engine.Basic
import HotCounter.Engine.Spec
import HotCounter.Engine.Recovery
import HotCounter.Engine.Reference
import HotCounter.Foundation.Transition
import HotCounter.Foundation.Interaction
import HotCounter.Engine.Threads
import HotCounter.Engine.Gate
import HotCounter.Engine.DangerTest
import HotCounter.Engine.Conservation
import HotCounter.Engine.Announcing
import HotCounter.Engine.Exhaustion
import HotCounter.Engine.Frozen
import HotCounter.Engine.Epochs
import HotCounter.Engine.Readings
import HotCounter.Engine.Snapshots
import HotCounter.Config.Plan
import HotCounter.Config.Runtime
import HotCounter.Config.Options
import HotCounter.Config.CommandLine
import HotCounter.Config.Daemons
import HotCounter.Config.Escrow
import HotCounter.Handoff.Controller
import HotCounter.Handoff.Node
import HotCounter.Handoff.Cluster
import HotCounter.Handoff.View
import HotCounter.Handoff.Protocol
import HotCounter.Handoff.Stance
import HotCounter.Handoff.Rules
import HotCounter.Handoff.Follower
import HotCounter.Handoff.Leader
import HotCounter.Handoff.Restart
import HotCounter.Handoff.Invariant
import HotCounter.Handoff.Agreement
import HotCounter.Handoff.Limit
import HotCounter.Handoff.Fence
import HotCounter.Handoff.Dissemination
import HotCounter.Handoff.Datagram
import HotCounter.Handoff.Roles
import HotCounter.Handoff.JournalFile
import HotCounter.Foundation.Gossip
import HotCounter.Replication.GCounter
import HotCounter.Queue.Mpmc
import HotCounter.Queue.Tickets
import HotCounter.Queue.Consumer
import HotCounter.Queue.Detector
import HotCounter.Queue.Alerts
import HotCounter.Queue.Samples
import HotCounter.Foundation.StoreBuffer
import HotCounter.Engine.BufferedGate
import HotCounter.Foundation.Bytes
import HotCounter.Foundation.Descriptor
import HotCounter.Foundation.Lines
import HotCounter.Foundation.SecureHash
import HotCounter.Foundation.Assoc
import HotCounter.Replication.Wire
import HotCounter.Replication.Replicator
import HotCounter.Replication.Network
import HotCounter.Replication.Convergence
import HotCounter.Replication.Acknowledgement
import HotCounter.Replication.Accounting
import HotCounter.DataPlane.UdpProtocol
import HotCounter.DataPlane.TcpServer
import HotCounter.Auth.Authenticator
import HotCounter.Auth.Standard
import HotCounter.Foundation.Contract
import HotCounter.Handoff.Process
import HotCounter.Handoff.Contract
import HotCounter.Handoff.Handlers
import HotCounter.Handoff.Lifetime
import HotCounter.Handoff.Bookkeeping
import HotCounter.Handoff.Terms
import HotCounter.Handoff.Stale
import HotCounter.Handoff.Decision
import HotCounter.Foundation.Linearizable
import HotCounter.Engine.Linearizable
import HotCounter.Foundation.Progress
import HotCounter.Engine.Progress
import HotCounter.Foundation.InPlace
import HotCounter.DataPlane.Dpdk
import HotCounter.DataPlane.Workers
import HotCounter.Engine.Runtime
import HotCounter.Legacy.Number
import HotCounter.Legacy.Server
import HotCounter.Legacy.Accounting
import HotCounter.Legacy.Linearizable
