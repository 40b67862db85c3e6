import MessageRouting.Lib.Lts
import MessageRouting.Lib.Potential
import MessageRouting.Lib.Fairness
import MessageRouting.Lib.Threads
import MessageRouting.Lib.Locks
import MessageRouting.Lib.Population
import MessageRouting.Lib.Decimal
import MessageRouting.Lib.BoundedSet
import MessageRouting.Router.SignalingQueue
import MessageRouting.Router.Signaling
import MessageRouting.Router.SignalingProgress
import MessageRouting.Router.Message
import MessageRouting.Router.Sessions
import MessageRouting.Router.Registry
import MessageRouting.Router.Accepting
import MessageRouting.Router.FdSet
import MessageRouting.Router.TcpServer
import MessageRouting.Router.ReadAsync
import MessageRouting.Router.Reading
import MessageRouting.Router.Chunking
import MessageRouting.Router.Calls
import MessageRouting.Router.Handshake
import MessageRouting.Router.Draining
import MessageRouting.Router.ReaderLog
import MessageRouting.Router.Workers
import MessageRouting.Router.Routable
import MessageRouting.Router.Enqueueing
import MessageRouting.Router.Conservation
import MessageRouting.Router.Delivery
import MessageRouting.Router.EventLoop
import MessageRouting.Router.Locking
import MessageRouting.Router.Progress
import MessageRouting.Router.Sending
import MessageRouting.Router.Directory
import MessageRouting.Router.Listening
import MessageRouting.Router.Start
import MessageRouting.Node.Message
import MessageRouting.Node.Reply
import MessageRouting.Node.Start
import MessageRouting.Node.Receiving
import MessageRouting.Node.Conversation
import MessageRouting.Node.Sockets
import MessageRouting.Node.Buffer
import MessageRouting.System.Fields
import MessageRouting.System.Network
import MessageRouting.System.Addressing
import MessageRouting.System.RouterSteps
import MessageRouting.System.NodeSteps
import MessageRouting.System.PingPong
import MessageRouting.System.Accounting
import MessageRouting.System.Progress
import MessageRouting.System.Liveness
import MessageRouting.System.Effort
import MessageRouting.System.Registration
import MessageRouting.System.Recovery
import MessageRouting.System.Fairness
