import ComputerNetwork.Lib.Run
import ComputerNetwork.Lib.Loop
import ComputerNetwork.Lib.OrderedMap
import ComputerNetwork.Lib.Chains
import ComputerNetwork.Tcp.Mysock
import ComputerNetwork.Tcp.Transport
import ComputerNetwork.Tcp.Invariant
import ComputerNetwork.Tcp.Connection
import ComputerNetwork.Tcp.Stream
import ComputerNetwork.Tcp.Receive
import ComputerNetwork.Tcp.Window
import ComputerNetwork.Tcp.Sequence
import ComputerNetwork.Tcp.Progress
import ComputerNetwork.Tcp.Handshake
import ComputerNetwork.Tcp.ConnectionDemux
import ComputerNetwork.Tcp.ListenQueue
import ComputerNetwork.Tcp.AcceptOrder
import ComputerNetwork.Tcp.Backlog
import ComputerNetwork.Tcp.Listener
import ComputerNetwork.Tcp.Framing
import ComputerNetwork.Tcp.TcpSum
import ComputerNetwork.Tcp.Payload
import ComputerNetwork.Tcp.Segmentation
import ComputerNetwork.Tcp.AppReads
import ComputerNetwork.Tcp.PacketQueue
import ComputerNetwork.Tcp.HashTable
import ComputerNetwork.Router.Router
import ComputerNetwork.Router.Resolution
import ComputerNetwork.Router.Checksum
import ComputerNetwork.Router.Retry
import ComputerNetwork.Router.Emission
import ComputerNetwork.Router.Threads
import ComputerNetwork.Router.Entries
import ComputerNetwork.Router.ArpReplies
import ComputerNetwork.Router.Cascades
import ComputerNetwork.Router.Termination
import ComputerNetwork.Router.Sweep
import ComputerNetwork.Router.RequestQueue
import ComputerNetwork.Router.RouteSelection
import ComputerNetwork.Router.Handover
import ComputerNetwork.Router.Forwarding
import ComputerNetwork.Router.IcmpErrors
import ComputerNetwork.Router.Quotes
import ComputerNetwork.Router.PacketAccess
import ComputerNetwork.Router.Buffers
import ComputerNetwork.Router.EchoReplies
import ComputerNetwork.Router.HardwareInfo
import ComputerNetwork.Router.RoutingFile
import ComputerNetwork.Router.InternetChecksum
import ComputerNetwork.Router.CommandReader
import ComputerNetwork.Http.ProxyParse
import ComputerNetwork.Http.HeaderStore
import ComputerNetwork.Http.HeaderLines
import ComputerNetwork.Http.RequestLine
import ComputerNetwork.Http.Parse
import ComputerNetwork.Http.Rendering
import ComputerNetwork.Http.Stable
import ComputerNetwork.Http.Grammar
import ComputerNetwork.Http.Overruns
import ComputerNetwork.Http.Rollback
import ComputerNetwork.Http.MessageHead
import ComputerNetwork.Http.HeaderValues
import ComputerNetwork.Http.HandleClient
import ComputerNetwork.Http.ReadBack
import ComputerNetwork.Http.Rewriting
import ComputerNetwork.Http.ReadLoop
import ComputerNetwork.Http.HeaderMap
import ComputerNetwork.Http.Lengths
import ComputerNetwork.Lib.BlockHash
import ComputerNetwork.Lib.Network
import ComputerNetwork.Router.Sha1
import ComputerNetwork.Router.Network
import ComputerNetwork.Router.VnsMessages
import ComputerNetwork.Router.Client
import ComputerNetwork.Router.Session
import ComputerNetwork.Router.Wire
import ComputerNetwork.Lib.Rest
import ComputerNetwork.Tcp.Closing
import ComputerNetwork.Tcp.Delivery
import ComputerNetwork.Tcp.Channel
import ComputerNetwork.Tcp.FileSession
import ComputerNetwork.Tcp.LongRequest
import ComputerNetwork.Tcp.FileStack
