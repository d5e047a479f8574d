import Wsnet.Protocol.Connection

/-!
# Opening the socket of a CONNECT

What `socket_connect` asks of the operating system before it answers, branch by branch: a list of
calls in the order of the code, each of which may raise (`Os.raises`). The first that raises decides
the outcome, with the text of its exception. The IPv6 part of the LLMNR and MDNS branches is inside a
`try` of its own that swallows everything, so it is not in the lists. In the NBTNS branch the socket
is bound in a loop over the addresses of the interface that stops after the first.
-/

namespace Wsnet

/-- The branches of `socket_connect`. -/
inductive SocketKind
  | tcpClient
  | udpClient
  | tcpServer
  /-- a TCP bind of another type, which is refused -/
  | tcpServerOther
  | udpServer
  | llmnr
  | nbtns
  | mdns
  /-- a UDP bind of another type, for which there is no branch -/
  | udpServerOther
  deriving DecidableEq, Repr

/-- The branch a CONNECT takes. -/
def WSNConnect.kind (c : WSNConnect) : SocketKind :=
  if c.bind = false then
    if c.protocol = "TCP" then .tcpClient else .udpClient
  else if c.protocol = "TCP" then
    if c.bindtype = 1 then .tcpServer else .tcpServerOther
  else if c.bindtype = 1 then .udpServer
  else if c.bindtype = 2 then .llmnr
  else if c.bindtype = 3 then .nbtns
  else if c.bindtype = 4 then .mdns
  else .udpServerOther

/-- A call of the operating system or the event loop that may raise. -/
inductive OsCall
  | openConnection (ip : String) (port : Int)
  | createDatagramEndpoint
  | startServer (ip : String) (port : Int)
  | socket
  | setsockopt (name : String)
  | bind (ip : String) (port : Int)
  | getIpsFromInterface (interface : String)
  | inetAton (ip : String)
  | addMembership (ip : String)
  | setblocking
  deriving DecidableEq, Repr

/-- What the operating system makes of the calls: the exception a call raises, if any, and the IPv4
addresses of the interface. -/
structure Os where
  raises : OsCall → Option String
  ips : List String := []

/-- The calls of the multicast branches, which differ in the port and the group. -/
def multicastCalls (c : WSNConnect) (port : Int) (group : String) (o : Os) : List OsCall :=
  [.socket, .setsockopt "SO_REUSEADDR", .setsockopt "IP_MULTICAST_TTL", .bind "" port, .getIpsFromInterface c.ip] ++
    o.ips.flatMap (fun ip => [.inetAton group, .inetAton ip, .addMembership ip]) ++
      [.setblocking, .createDatagramEndpoint]

def openCalls (c : WSNConnect) (o : Os) : List OsCall :=
  match c.kind with
  | .tcpClient => [.openConnection c.ip c.port]
  | .udpClient => [.createDatagramEndpoint]
  | .tcpServer => [.startServer c.ip c.port]
  | .udpServer => [.socket, .bind c.ip c.port, .createDatagramEndpoint]
  | .llmnr => multicastCalls c 5355 "224.0.0.252" o
  | .nbtns =>
    [.socket, .setsockopt "SO_BROADCAST", .getIpsFromInterface c.ip] ++
      (match o.ips with
      | [] => []
      | ip :: _ => [.bind ip 137]) ++ [.setblocking, .createDatagramEndpoint]
  | .mdns => multicastCalls c 5353 "224.0.0.251" o
  | .tcpServerOther | .udpServerOther => []

/-- The text of the exception the calls end with, if one of them raises. -/
def Os.firstExc (o : Os) (calls : List OsCall) : Option String := calls.findSome? o.raises

/-- The socket a successful NBTNS branch ends with is bound only if there is an address to bind it to. -/
def boundAfter (c : WSNConnect) (o : Os) : Bool := c.kind ≠ .nbtns ∨ o.ips ≠ []

end Wsnet
