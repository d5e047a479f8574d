import Wsnet.Lib.Run
import Wsnet.Lib.Cut
import Wsnet.Lib.Bytes
import Wsnet.Lib.Buffer
import Wsnet.Lib.Text
import Wsnet.Lib.Decimal
import Wsnet.Lib.IpAddress
import Wsnet.Lib.IpText
import Wsnet.Lib.Dict
import Wsnet.Lib.Chunk
import Wsnet.Lib.Record
import Wsnet.Lib.Lock
import Wsnet.Lib.File
import Wsnet.Lib.Exec
import Wsnet.Lib.Feed
import Wsnet.Lib.Log
import Wsnet.Lib.TwoWay
import Wsnet.Lib.LastWord
import Wsnet.Protocol.Utils
import Wsnet.Protocol.Common
import Wsnet.Protocol.Authentication
import Wsnet.Protocol.Connection
import Wsnet.Protocol.FileOp
import Wsnet.Protocol.ProcessOp
import Wsnet.Protocol.Cmd
import Wsnet.Protocol.RoundTrip
import Wsnet.Protocol.Kept
import Wsnet.Protocol.Lossy
import Wsnet.Protocol.Addresses
import Wsnet.Protocol.Accept
import Wsnet.Server.SmbPipe
import Wsnet.Agent.Effect
import Wsnet.Agent.TcpClient
import Wsnet.Agent.ReplyTrace
import Wsnet.Agent.OpenSocket
import Wsnet.Agent.Udp
import Wsnet.Agent.UdpShutdown
import Wsnet.Agent.TcpServer
import Wsnet.Agent.Accepted
import Wsnet.Agent.Session
import Wsnet.Agent.Answer
import Wsnet.Agent.Asked
import Wsnet.Agent.Agent
import Wsnet.Agent.Act
import Wsnet.Agent.Tables
import Wsnet.Agent.Entries
import Wsnet.Agent.Link
import Wsnet.Agent.TcpOnly
import Wsnet.Agent.Delivers
import Wsnet.Agent.EndsOnOk
import Wsnet.Agent.Refused
import Wsnet.Agent.Connections
import Wsnet.Agent.CloseServer
import Wsnet.Agent.Hosting
import Wsnet.Agent.ConnectionIds
import Wsnet.Agent.Terminate
import Wsnet.Agent.FileOps
import Wsnet.Agent.Listing
import Wsnet.Pyodide.Senders
import Wsnet.Pyodide.Transport
import Wsnet.Pyodide.Closing
import Wsnet.Pyodide.Records
import Wsnet.Pyodide.Handshake
import Wsnet.Pyodide.Tls
import Wsnet.Pyodide.Connect
import Wsnet.Pyodide.Pausing
import Wsnet.Pyodide.Paused
import Wsnet.Agent.LocalFiles
import Wsnet.Pyodide.File
import Wsnet.Pyodide.FileOps
import Wsnet.Pyodide.FileWrite
import Wsnet.Pyodide.FileOffset
import Wsnet.Pyodide.ServerReader
import Wsnet.Pyodide.TcpServer
import Wsnet.Pyodide.Handlers
import Wsnet.Pyodide.ServerWriter
import Wsnet.Pyodide.Serving
import Wsnet.Pyodide.HandsOver
import Wsnet.Pyodide.Interface
import Wsnet.Pyodide.Established
import Wsnet.Pyodide.LocalClose
import Wsnet.Agent.Relay
import Wsnet.Pyodide.Udp
import Wsnet.Pyodide.Datagrams
import Wsnet.Pyodide.Tunnel
import Wsnet.Pyodide.Tunnels
import Wsnet.Pyodide.Lookup
import Wsnet.Pyodide.Page
import Wsnet.Pyodide.Streams
import Wsnet.Router.Router
import Wsnet.Router.Agents
import Wsnet.Router.Commands
import Wsnet.Router.Delivery
import Wsnet.Router.Descriptions
import Wsnet.Router.Listing
import Wsnet.Router.Announce
import Wsnet.Router.Routes
import Wsnet.Operator.SspiProxy
import Wsnet.Operator.Authenticate
import Wsnet.Operator.NetworkProxy
import Wsnet.Operator.LocalClose
