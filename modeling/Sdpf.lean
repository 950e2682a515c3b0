import Sdpf.Semantics.Machine
import Sdpf.Semantics.Progress
import Sdpf.Semantics.Simulation
import Sdpf.Semantics.CondVar
import Sdpf.Data.Memory
import Sdpf.Data.Heap
import Sdpf.Data.Shared
import Sdpf.Data.BigEndian
import Sdpf.Data.CString
import Sdpf.Data.Search
import Sdpf.Stream.Ledger
import Sdpf.Stream.Deframer
import Sdpf.Stream.Scanner
import Sdpf.Buffer.IOBuf
import Sdpf.Buffer.Fifo
import Sdpf.Buffer.Capacity
import Sdpf.Buffer.Compaction
import Sdpf.Msgpack.Codec
import Sdpf.Msgpack.Wire
import Sdpf.Dispatcher.Meta
import Sdpf.Dispatcher.Decoder
import Sdpf.Dispatcher.RoundTrip
import Sdpf.Dispatcher.Body
import Sdpf.Channel.Packet
import Sdpf.Channel.Parsing
import Sdpf.Channel.Segments
import Sdpf.Channel.Sending
import Sdpf.Channel.Message
import Sdpf.Channel.Frames
import Sdpf.Channel.Responses
import Sdpf.Connection.Receive
import Sdpf.Connection.Loop
import Sdpf.Connection.Delivery
import Sdpf.Connection.Health
import Sdpf.Connection.Sessions
import Sdpf.Client.Channel
import Sdpf.Client.CallMethod
import Sdpf.Client.Interleaving
import Sdpf.Client.Counting
import Sdpf.Client.Ids
import Sdpf.Client.Attribution
import Sdpf.Client.Outcomes
import Sdpf.Client.Tracking
import Sdpf.Client.Completion
import Sdpf.Client.Outstanding
import Sdpf.Client.Listening
import Sdpf.Client.Served
import Sdpf.Client.Session
import Sdpf.Client.Once
import Sdpf.Client.Waiting.Places
import Sdpf.Client.Waiting.Calls
import Sdpf.Client.Waiting.Steps
import Sdpf.Client.Waiting.Locks
import Sdpf.Client.Waiting.Order
import Sdpf.Client.Waiting.Completing
import Sdpf.Client.Waiting
import Sdpf.Client.Marking
import Sdpf.Client.Registration
import Sdpf.Client.Refusal
import Sdpf.Server.Request
import Sdpf.Server.Naming
import Sdpf.Server.MsgService
import Sdpf.Server.Answers
import Sdpf.Server.Owning
import Sdpf.Server.Ownership
import Sdpf.Server.Notify.Channels
import Sdpf.Server.Notify.Registry
import Sdpf.Server.Notify.Registries
import Sdpf.Server.Notify
import Sdpf.Server.Stopping.Steps
import Sdpf.Server.Stopping.Sound
import Sdpf.Server.Stopping
import Sdpf.Network.Exchange
import Sdpf.Network.CrossTalk
import Sdpf.Network.Carrier
import Sdpf.Network.Settlement.Accounts
import Sdpf.Network.Settlement.Moves
import Sdpf.Network.Settlement
import Sdpf.Network.Draining
import Sdpf.Network.Endpoint
import Sdpf.Network.Carriage
import Sdpf.Network.Link
import Sdpf.Network.Backlog
import Sdpf.Network.Wire
import Sdpf.Network.Image
import Sdpf.Network.Transport
import Sdpf.Network.Termination
import Sdpf.Network.Echo
import Sdpf.Network.Feed
import Sdpf.Network.Fate
import Sdpf.Network.Publication
import Sdpf.Roles.Channel
import Sdpf.Roles.Safety
import Sdpf.Roles.Lifetime.Objects
import Sdpf.Roles.Lifetime.Operations
import Sdpf.Roles.Lifetime.Holding
import Sdpf.Roles.Lifetime.Keeping
import Sdpf.Roles.Lifetime.Steps
import Sdpf.Roles.Lifetime
import Sdpf.Uv.Handle
import Sdpf.Tcp.Connection
import Sdpf.Tcp.Order
import Sdpf.Tcp.Reports
import Sdpf.Tcp.Queue
import Sdpf.Tcp.Closing
import Sdpf.Tcp.Server
import Sdpf.Tcp.Owner
import Sdpf.Loop.Watcher
import Sdpf.Loop.Reuse
import Sdpf.Threads.BlockingQueue
import Sdpf.Threads.ThreadPool
import Sdpf.Threads.Executing
import Sdpf.Threads.Joining
import Sdpf.Scheduler.IOScheduler
import Sdpf.Scheduler.Steps
import Sdpf.Scheduler.Ordering
import Sdpf.Scheduler.Shutdown
