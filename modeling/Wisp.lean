import Wisp.Transition
import Wisp.Flow
import Wisp.RotatingWindow
import Wisp.OpenAddressing
import Wisp.EditLog
import Wisp.AssignLog
import Wisp.Ancestry
import Wisp.FairQueue
import Wisp.Multipart
import Wisp.ListTable
import Wisp.LittleEndian
import Wisp.Varint
import Wisp.ProtoWire
import Wisp.Utf8
import Wisp.MessageKeys
import Wisp.WireFrame
import Wisp.Framing
import Wisp.SubscriptionRegistry
import Wisp.SubscriptionMap
import Wisp.Interest
import Wisp.Routing
import Wisp.LinkQueues
import Wisp.MessageHistory
import Wisp.DedupWindow
import Wisp.IdSetTrace
import Wisp.BinaryUuid
import Wisp.SafeQueue
import Wisp.PeerWake
import Wisp.Discovery
import Wisp.BeaconFormat
import Wisp.DiscoveryTrace
import Wisp.Broker
import Wisp.BrokerTurn
import Wisp.Delivery
import Wisp.Session
import Wisp.InterestMirror
import Wisp.BrokerRun
import Wisp.SignOfLife
import Wisp.Stats
import Wisp.PeerOpening
import Wisp.Mesh
import Wisp.MeshSessions
import Wisp.MeshStats
import Wisp.MeshInterest
import Wisp.MeshDedup
import Wisp.MeshOrigin
import Wisp.MeshFlow
import Wisp.MeshRest
import Wisp.MeshDelivery
import Wisp.MeshComplete
import Wisp.MeshUnlink
import Wisp.BrokerLoop
import Wisp.LoopOrder
import Wisp.LoopLedger
import Wisp.ZombieSweep
import Wisp.ClusterSwap
import Wisp.WantedPeers
import Wisp.ClusterRejoin
import Wisp.ClientRecord
import Wisp.LinkReset
import Wisp.LinkCover
import Wisp.ConnectionManager
import Wisp.Dispatch
import Wisp.ConnectionApi
import Wisp.Lifecycle
import Wisp.Shutdown
import Wisp.ShutdownReturns
import Wisp.ClientSession
import Wisp.Worker
import Wisp.WorkerAcks
import Wisp.WorkerSync
import Wisp.WorkerOrder
import Wisp.WorkerGoodbye
import Wisp.WorkerGate
import Wisp.ClientRequest
import Wisp.Identifiers
import Wisp.AnyFrame
import Wisp.AnyPayload
import Wisp.MessageLine
import Wisp.Recording
import Wisp.Capture
import Wisp.WorkerPublisher
import Wisp.Replay
import Wisp.Exchange
import Wisp.PartyTurn
import Wisp.RequestReply
import Wisp.Threads
import Wisp.BrokerThreads
import Wisp.Pace
import Wisp.Lan
import Wisp.LanMesh
import Wisp.LanLinks
import Wisp.KeepAlive
import Wisp.WorkerClock
import Wisp.Tap
