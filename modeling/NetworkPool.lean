import NetworkPool.Lib.Blocks
import NetworkPool.Buffer.Heap
import NetworkPool.Buffer.Ownership
import NetworkPool.Lib.Keyed
import NetworkPool.Lib.Objects
import NetworkPool.Node.Sockaddr
import NetworkPool.Node.Nodes
import NetworkPool.Node.Pairs
import NetworkPool.Lib.Lts
import NetworkPool.Lib.AssocMap
import NetworkPool.Lib.Log
import NetworkPool.Lib.Family
import NetworkPool.Lib.CString
import NetworkPool.Lib.Scan
import NetworkPool.Lib.Incremental
import NetworkPool.Lib.Codec
import NetworkPool.Node
import NetworkPool.Pool.State
import NetworkPool.Pool.UvWrapper
import NetworkPool.Pool.Connection
import NetworkPool.Pool.Callbacks
import NetworkPool.Pool.Wakeup
import NetworkPool.Pool.System
import NetworkPool.Pool.Table
import NetworkPool.Pool.Trace
import NetworkPool.Pool.WellFormed
import NetworkPool.Pool.TableFunctions
import NetworkPool.Pool.UvSteps
import NetworkPool.Pool.WakeupSteps
import NetworkPool.Pool.Steps
import NetworkPool.Pool.Notifications
import NetworkPool.Pool.Waiting
import NetworkPool.Pool.Orphans
import NetworkPool.Pool.Conservation
import NetworkPool.Pool.QueueDrops
import NetworkPool.Pool.GracefulClose
import NetworkPool.Pool.Reports
import NetworkPool.Pool.Homes
import NetworkPool.Pool.Attempts
import NetworkPool.Pool.Calls
import NetworkPool.Pool.CallSteps
import NetworkPool.Pool.Local
import NetworkPool.Pool.Servers
import NetworkPool.Pool.Lifecycle
import NetworkPool.Pool.Requests
import NetworkPool.Pool.Blocks
import NetworkPool.Pool.BlockSteps
import NetworkPool.Pool.HandleLifecycle
import NetworkPool.Pool.Routes
import NetworkPool.Pool.Usable
import NetworkPool.Pool.Watchdog
import NetworkPool.Pool.Exit
import NetworkPool.Pool.Binds
import NetworkPool.Pool.BindAnswers
import NetworkPool.Pool.Confined
import NetworkPool.Pool.Protocol
import NetworkPool.Pool.Isolation
import NetworkPool.Pool.Passive
import NetworkPool.Buffer
import NetworkPool.Http.Context
import NetworkPool.Http.Server
import NetworkPool.Http.Passes
import NetworkPool.Http.Locality
import NetworkPool.Http.Splitting
import NetworkPool.Http.Window
import NetworkPool.Http.Stream
import NetworkPool.Http.Requests
import NetworkPool.Http.Ranges
import NetworkPool.Http.Cursors
import NetworkPool.Http.Growth
import NetworkPool.Http.Message
import NetworkPool.Http.DecodeHeader
import NetworkPool.Http.FirstLine
import NetworkPool.Http.DecodeBody
import NetworkPool.Http.RoundTrip
import NetworkPool.Http.ChunkFraming
import NetworkPool.Http.HeaderFields
import NetworkPool.Http.BodyLength
import NetworkPool.Http.FirstLineFields
import NetworkPool.Lib.Memory
import NetworkPool.Memory.Allocator
import NetworkPool.Memory.FreeLists
import NetworkPool.Memory.Leaks
import NetworkPool.Memory.Trace
import NetworkPool.Memory.Accounting
import NetworkPool.WorkQueue.Queue
import NetworkPool.WorkQueue.Disposal
import NetworkPool.WorkQueue.Wakeups
import NetworkPool.Server.State
import NetworkPool.Server.System
import NetworkPool.Server.Steps
import NetworkPool.Server.Registry
import NetworkPool.Server.Order
import NetworkPool.Server.Routing
import NetworkPool.Server.Responses
import NetworkPool.Server.OwnConnection
import NetworkPool.Server.Contexts
import NetworkPool.Server.Parsing
import NetworkPool.Server.Answers
import NetworkPool.Peer.Context
import NetworkPool.Peer.Framing
import NetworkPool.Peer.Bounds
import NetworkPool.Peer.Window
import NetworkPool.Pool.LoopEnd
import NetworkPool.Pool.Pace
import NetworkPool.Pool.Signals
