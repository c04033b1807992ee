import OxenMQ.Lib.Transition
import OxenMQ.Lib.Multimap
import OxenMQ.Lib.Reservation
import OxenMQ.Lib.Tally
import OxenMQ.Lib.Fallible
import OxenMQ.Lib.Lists
import OxenMQ.Basic
import OxenMQ.Connections.Defs
import OxenMQ.Connections.Incoming
import OxenMQ.Connections.Spec
import OxenMQ.Connections.System
import OxenMQ.Connections.Tables
import OxenMQ.Connections.Consistency
import OxenMQ.Connections.Requests
import OxenMQ.Workers.Defs
import OxenMQ.Workers.System
import OxenMQ.Workers.Spec
import OxenMQ.Workers.Protocol
import OxenMQ.Workers.Invariant
import OxenMQ.Workers.Preservation
import OxenMQ.Workers.Books
import OxenMQ.Workers.Shutdown
import OxenMQ.Lib.ForkJoin
import OxenMQ.Workers.BatchLife
import OxenMQ.Workers.Batches
import OxenMQ.Workers.LifeCycle
import OxenMQ.Workers.Message
import OxenMQ.Workers.Tags
import OxenMQ.Connections.Updated
import OxenMQ.Lib.CircularBuffer
import OxenMQ.Loop
import OxenMQ.Control.Wire
import OxenMQ.Control.Send
import OxenMQ.Control.Connect
import OxenMQ.Connections.Changes
import OxenMQ.Connections.Numbers
import OxenMQ.Connections.Attempts
import OxenMQ.Connections.ActiveSns
import OxenMQ.Connections.Gating
import OxenMQ.Bounds
import OxenMQ.Connections.Rejections
import OxenMQ.Connections.Replies
import OxenMQ.Connections.Idle
import OxenMQ.Control.Calls
import OxenMQ.Workers.Timers
import OxenMQ.Proxy.Defs
import OxenMQ.Proxy.Spec
import OxenMQ.Proxy.Exceptions
import OxenMQ.Workers.Saturation
import OxenMQ.Proxy.Saturation
import OxenMQ.Workers.Order
import OxenMQ.Proxy.Order
import OxenMQ.Address.Defs
import OxenMQ.Address.Spec
import OxenMQ.Address.RoundTrip
import OxenMQ.Address.Accepted
import OxenMQ.Connections.Termination
import OxenMQ.Connections.Unique
import OxenMQ.Workers.Tagged
import OxenMQ.Workers.Sites
import OxenMQ.Proxy.Timers
import OxenMQ.Proxy.TimerTables
import OxenMQ.PubSub
import OxenMQ.Lib.Properties
import OxenMQ.Auth.Listeners
import OxenMQ.Auth.Zap
import OxenMQ.Address.Equality
import OxenMQ.Address.Grammar
import OxenMQ.Address.Checked
import OxenMQ.Draining
import OxenMQ.Registration
import OxenMQ.Connections.Closing
import OxenMQ.Connections.SnUpdates
import OxenMQ.Connections.OwnRecord
import OxenMQ.Connections.Directions
import OxenMQ.Connections.Unsent
import OxenMQ.Connections.SelfSends
import OxenMQ.Lib.Rest
import OxenMQ.Workers.Work
import OxenMQ.Workers.Rest
import OxenMQ.Lib.Simulation
import OxenMQ.Workers.Calls
import OxenMQ.Connections.Levels
import OxenMQ.Proxy.Tables
import OxenMQ.Proxy.Commands
import OxenMQ.Lib.CondVar
import OxenMQ.Workers.Routing
import OxenMQ.Startup.Defs
import OxenMQ.Startup.Handshake
import OxenMQ.Startup.Pool
import OxenMQ.Startup.Rest
import OxenMQ.Workers.Reach
import OxenMQ.Lib.EdgeTriggered
import OxenMQ.Polling.Defs
import OxenMQ.Polling.Spec
import OxenMQ.Polling.Sleep
import OxenMQ.Workers.Outbox
import OxenMQ.Polling.Proxy
import OxenMQ.Polling.Agreement
