import EpollServer.Lib.Machine
import EpollServer.Lib.Splice
import EpollServer.Lib.ListModify
import EpollServer.Lib.Copies
import EpollServer.Lib.Slip
import EpollServer.Lib.Effect
import EpollServer.Lib.Last
import EpollServer.Lib.Path
import EpollServer.Lib.Settling
import EpollServer.Lib.Partial
import EpollServer.Core.ThreadPool
import EpollServer.Core.Server
import EpollServer.Core.Accepting
import EpollServer.Core.Epoll
import EpollServer.Core.Push
import EpollServer.Core.Database
import EpollServer.Core.Algo
import EpollServer.Core.Stores
import EpollServer.Core.ConnectionPool
import EpollServer.Core.Handler
import EpollServer.Core.Serving
import EpollServer.Core.Whole
import EpollServer.Core.Startup
import EpollServer.Core.Address
import EpollServer.Core.Link
import EpollServer.Core.Message
import EpollServer.Core.Sending
import EpollServer.Core.Wire
import EpollServer.Core.Transfer
import EpollServer.Core.Socket
import EpollServer.Core.Library
import EpollServer.Core.Requests
import EpollServer.Core.Config
import EpollServer.Core.Path
import EpollServer.Core.Channel
import EpollServer.Core.Duplex
import EpollServer.Core.EventLoop
import EpollServer.Theory.ThreadPool.Steps
import EpollServer.Theory.ThreadPool.Conservation
import EpollServer.Theory.ThreadPool.Wakeup
import EpollServer.Theory.ThreadPool.Completion
import EpollServer.Theory.ThreadPool.Shutdown
import EpollServer.Theory.ThreadPool.Settling
import EpollServer.Theory.ThreadPool.Locking
import EpollServer.Theory.ThreadPool.Lifecycle
import EpollServer.Theory.ThreadPool.Drain
import EpollServer.Theory.ThreadPool.Sizing
import EpollServer.Theory.Accepting
import EpollServer.Theory.Growth
import EpollServer.Theory.Epoll
import EpollServer.Theory.Push
import EpollServer.Theory.Inserts
import EpollServer.Theory.Atomic
import EpollServer.Theory.Points
import EpollServer.Theory.Assembly.Buffer
import EpollServer.Theory.Assembly.Header
import EpollServer.Theory.Assembly.Coverage
import EpollServer.Theory.Assembly.Division
import EpollServer.Theory.Assembly.Repeats
import EpollServer.Theory.Following
import EpollServer.Theory.Stores
import EpollServer.Theory.Algo
import EpollServer.Theory.ConnectionPool
import EpollServer.Theory.Attempts
import EpollServer.Theory.Handler
import EpollServer.Theory.Serving
import EpollServer.Theory.Whole
import EpollServer.Theory.Decline
import EpollServer.Theory.Silence
import EpollServer.Theory.Capacity
import EpollServer.Theory.Gathering
import EpollServer.Theory.Numbers
import EpollServer.Theory.Address
import EpollServer.Theory.Link
import EpollServer.Theory.Waiting
import EpollServer.Theory.Wire
import EpollServer.Theory.Transfer
import EpollServer.Theory.Socket
import EpollServer.Theory.Json
import EpollServer.Theory.Interest
import EpollServer.Theory.Batches
import EpollServer.Theory.Versions
import EpollServer.Theory.Blocks
import EpollServer.Theory.Firmware
import EpollServer.Theory.AlgoFile
import EpollServer.Theory.FileRequest
import EpollServer.Theory.Received
import EpollServer.Theory.Channel
import EpollServer.Theory.Duplex
import EpollServer.Theory.Exchange
import EpollServer.Theory.Calls
import EpollServer.Theory.Config
import EpollServer.Theory.Startup
import EpollServer.Theory.Path
import EpollServer.Theory.EventLoop
