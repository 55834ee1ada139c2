import Mcast.Transition
import Mcast.System.Service
import Mcast.System.Scheduler
import Mcast.System.Coherence
import Mcast.System.Invariant
import Mcast.System.Exclusion
import Mcast.System.Wakeups
import Mcast.System.Ledger
import Mcast.System.Refinement
import Mcast.System.Calls
import Mcast.System.Retirement
import Mcast.Timer.Cascade
import Mcast.Timer.Exactness
import Mcast.Net.Connection
import Mcast.Rpc.Codec
import Mcast.Rpc.Wire
import Mcast.Rpc.RoundTrip
import Mcast.Rpc.Server
import Mcast.Rpc.Isolation
import Mcast.Rpc.Channel
import Mcast.Rpc.Pairing
import Mcast.Timer.Linkage
import Mcast.Timer.Threads
import Mcast.Timer.Promptness
import Mcast.Timer.Cancellation
import Mcast.System.StartUp
import Mcast.System.WakeupChain
import Mcast.System.Changes
import Mcast.System.IoWaits
import Mcast.System.Sleeps
import Mcast.System.IdleTimeouts
import Mcast.Locking
import Mcast.System.Mutexes
import Mcast.System.Shutdown
import Mcast.System.Quiescence
import Mcast.Net.Transfer
import Mcast.Rpc.Grammar
import Mcast.Rpc.Limits
import Mcast.Timer.Positions
import Mcast.Timer.Rounding
import Mcast.Timer.Ticking
import Mcast.Bits
import Mcast.Util.CircularBuffer
import Mcast.Util.Queue
import Mcast.Util.QueueOrder
import Mcast.Util.ObjectCache
import Mcast.Chain
import Mcast.Util.MPSCQueue
import Mcast.Util.NodeReuse
import Mcast.Util.Status
import Mcast.Net.Address
import Mcast.Net.Connector
import Mcast.Net.Acceptor
import Mcast.Rpc.Registry
import Mcast.System.SleepTime
import Mcast.Util.Timestamp
import Mcast.Register
import Mcast.Util.QueueAccounts
import Mcast.Tokens
import Mcast.Util.ThreadPool
import Mcast.Util.QueueBalance
import Mcast.Util.Iterators
import Mcast.Util.Lifetimes
import Mcast.Machine
import Mcast.System.Contexts
import Mcast.System.Coroutines
import Mcast.Rpc.EndToEnd
import Mcast.Rpc.Generated
import Mcast.Rpc.MessageObjects
import Mcast.Monitor
import Mcast.System.OutsideCalls
import Mcast.Util.BlockingQueue
