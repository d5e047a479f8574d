import Wsnet.Lib.Dict
import Wsnet.Agent.Session

/-!
# The agent

`Agent` is a `WSNETAgent`: its tables, the sessions and connections its tasks belong to, the files it
has opened, and where `process_incoming` waits. A message is taken only when the one before it is
done, as the callers of `process_incoming` do. The tables hold indices: of the session whose queue or
task it is, of the connection, of the file. The replies of the file operations other than opening
are what the file system makes of them, and part of the event.
-/

namespace Wsnet

/-- `str(t).ljust(16, 'L').encode()` -/
def connectionId (n : Nat) : Bytes :=
  let s := Nat.toDigits 10 n
  utf8Encode (String.ofList (s ++ List.replicate (16 - s.length) 'L'))

/-- The `except` around a send: the token and the reason of the `WSNErr` that is sent when it raises; without
a reason it is the text of the exception. -/
structure OnFail where
  token : Bytes
  reason : Option String
  deriving DecidableEq, Repr

/-- Where `process_incoming` waits. -/
inductive Incoming
  /-- nowhere: no message is being processed, or the code runs on -/
  | idle
  /-- a message is being sent, and `rest` are to be sent after it; without `onFail` an exception of the send
  ends the processing -/
  | sending (rest : List CMD) (onFail : Option OnFail)
  /-- in the `stop` of the connection `conn`, with the connection tokens `rest` still to go through -/
  | closing (token : Bytes) (conn : Nat) (rest : List Bytes)
  /-- in the `drain` of `handle_write` of the connection `conn` -/
  | draining (conn : Nat) (data : Bytes)
  /-- in the `stop` that `handle_write` of the connection `conn` ends with -/
  | stopping (conn : Nat)
  deriving DecidableEq, Repr

/-- The connection whose `stop` waits for its send. -/
def Incoming.stops? : Incoming → Option Nat
  | .closing _ j _ | .stopping j => some j
  | _ => none

/-- What the file system makes of the calls of one message: whether `close` raises, the traceback with which
`open` does, and the replies to an operation other than opening. -/
structure FileOs where
  closeRaises : Bool := false
  openRaises : Option String := none
  replies : List CMD := []

/-- `'File operation failed %s' % cmd.type` -/
def fileOpFailed (t : CMDType) : String :=
  "File operation failed CMDType." ++
    match t with
    | .DIRLS => "DIRLS" | .DIRMK => "DIRMK" | .DIRRM => "DIRRM" | .DIRCOPY => "DIRCOPY" | .DIRMOVE => "DIRMOVE"
    | .FILEOPEN => "FILEOPEN" | .FILEREAD => "FILEREAD" | .FILEDATA => "FILEDATA" | .FILEENTRY => "FILEENTRY"
    | .FILECOPY => "FILECOPY" | .FILEMOVE => "FILEMOVE" | .FILERM => "FILERM" | .FILESTAT => "FILESTAT"
    -- no other type reaches a file operation
    | _ => ""

structure Agent where
  /-- `send_full_exception` -/
  full : Bool := true
  /-- what `handle_info` replies, but for the token -/
  info : WSNGetInfoReply
  connId : Nat := 10
  processQueues : Dict Bytes Nat := Dict.empty
  fileQueues : Dict Bytes Nat := Dict.empty
  servers : Dict Bytes Nat := Dict.empty
  /-- `server_queues`: the inner table has one connection token -/
  serverQueues : Dict Bytes Bytes := Dict.empty
  serverTcpConnections : Dict Bytes (Dict Bytes Nat) := Dict.empty
  sessions : List Session := []
  conns : List TCPServerConnection := []
  /-- for each file that was opened, whether it is still open -/
  files : List Bool := []
  /-- the `resolve_addresses` tasks: the token, and how far the task is -/
  resolving : List (Bytes × TaskState) := []
  incoming : Incoming := .idle

namespace Agent

inductive Output
  /-- of the session with the token -/
  | session (token : Bytes) (e : Effect)
  /-- of the connection with the index -/
  | conn (conn : Nat) (e : TCPServerConnection.Effect)
  /-- `writer.write` in `handle_write` -/
  | wrote (conn : Nat) (data : Bytes)
  /-- sent by `process_incoming` or by `resolve_addresses` -/
  | sent (c : CMD)
  /-- `process_incoming` has decoded a command -/
  | received (c : CMD)
  /-- `process_incoming` returned `(True, None)`, or `(None, e)` -/
  | returned (ok : Bool)

/-- The message that an output hands to the transport. -/
def Output.message? : Output → Option CMD
  | .session _ (.sent c) => some c
  | .conn _ (.sent c) => some (.SDSRV c)
  | .sent c => some c
  | _ => none

/-- The entries a session makes and removes; `i` is its index. -/
def applyEffect (token : Bytes) (i : Nat) (a : Agent) : Effect → Agent
  | .setProcessQueue => { a with processQueues := a.processQueues.set token i }
  | .delProcessQueue => { a with processQueues := a.processQueues.del token }
  | .setServerQueue connectiontoken => { a with serverQueues := a.serverQueues.set token connectiontoken }
  | .resetTcpConnections => { a with serverTcpConnections := a.serverTcpConnections.set token Dict.empty }
  | .setServer => { a with servers := a.servers.set token i }
  | .sent _ | .opened | .wrote _ | .read _ => a

/-- The entries a connection makes and removes; `j` is its index. -/
def applyConnEffect (c : TCPServerConnection) (j : Nat) (a : Agent) : TCPServerConnection.Effect → Agent
  | .register =>
    match a.serverTcpConnections.get? c.token with
    | some t => { a with serverTcpConnections := a.serverTcpConnections.set c.token (t.set c.connectiontoken j) }
    | none => a
  | .unregister =>
    match a.serverTcpConnections.get? c.token with
    | some t => { a with serverTcpConnections := a.serverTcpConnections.set c.token (t.del c.connectiontoken) }
    | none => a
  | .sent _ | .read _ => a

/-- The session at `i` has become `s` and done `os`. -/
def putSession (a : Agent) (i : Nat) (s : Session) (os : List Effect) : Agent × List Output :=
  (os.foldl (applyEffect s.cmd.token i) { a with sessions := a.sessions.set i s }, os.map (.session s.cmd.token))

/-- The connection at `j` has become `c` and done `os`. -/
def putConn (a : Agent) (j : Nat) (c : TCPServerConnection) (os : List TCPServerConnection.Effect) :
    Agent × List Output :=
  (os.foldl (applyConnEffect c j) { a with conns := a.conns.set j c }, os.map (.conn j))

/-! ### `process_incoming` -/

/-- `return True, None` or `return None, e` -/
def return_ (a : Agent) (ok : Bool) : Agent × List Output := ({ a with incoming := .idle }, [.returned ok])

/-- Outputs in front. -/
def andThen (o : List Output) (r : Agent × List Output) : Agent × List Output := (r.1, o ++ r.2)

/-- Send the messages one after another and return. -/
def sendAll (a : Agent) (cs : List CMD) (onFail : Option OnFail) : Agent × List Output :=
  match cs with
  | [] => a.return_ true
  | c :: rest => ({ a with incoming := .sending rest onFail }, [.sent c])

/-- `self.__servers[token].cancel()`: the task is that of a TCP server or the handler of a UDP server. -/
def cancelServer (s : Session) : Session :=
  match s.task with
  | .tcpServer t => { s with task := .tcpServer { t with cancelled := true } }
  | .udpServer t => { s with task := .udpServer { t with runCancelled := t.run.isLive } }
  | _ => s

/-- The end of the closing of a server. -/
def closeServer (a : Agent) (token : Bytes) : Agent × List Output :=
  match a.servers.get? token with
  | none => a.return_ false
  | some i =>
    match a.sessions[i]? with
    | none => a.return_ false
    | some s => { a with sessions := a.sessions.set i (cancelServer s), servers := a.servers.del token }.return_ true

/-- The loop over the connection tokens: a `stop` that has to send waits, one that has nothing to do
returns at once, and a token that is no longer in the table raises `KeyError`. -/
def closeLoop (a : Agent) (token : Bytes) : List Bytes → Agent × List Output
  | [] => a.closeServer token
  | ct :: rest =>
    match a.serverTcpConnections.get? token with
    | none => a.return_ false
    | some t =>
      match t.get? ct with
      | none => a.return_ false
      | some j =>
        match a.conns[j]? with
        | none => a.return_ false
        | some c =>
          if c.disconnected then
            closeLoop { (a.putConn j c.beginStop.1 c.beginStop.2).1 with incoming := .idle } token rest
          else
            let r := a.putConn j c.beginStop.1 c.beginStop.2
            ({ r.1 with incoming := .closing token j rest }, r.2)

/-- `await self.stop()` in `handle_write`. -/
def stopConn (a : Agent) (j : Nat) (c : TCPServerConnection) : Agent × List Output :=
  let r := a.putConn j c.beginStop.1 c.beginStop.2
  if c.disconnected then r.1.return_ true else ({ r.1 with incoming := .stopping j }, r.2)

/-- `process_fileop` for FILEOPEN. -/
def fileOpen (a : Agent) (c : WSNFileOpen) (f : FileOs) : Agent × List Output :=
  if c.mode ∈ ["rb", "r", "wb", "w"] then
    match f.openRaises with
    | some exc => a.sendAll [errReply a.full c.token (fileOpFailed .FILEOPEN) exc] none
    | none =>
      { a with files := a.files ++ [true], fileQueues := a.fileQueues.set c.token a.files.length }.sendAll
        [continueReply c.token] (some ⟨c.token, some (fileOpFailed .FILEOPEN)⟩)
  else a.sendAll [errReply a.full c.token "Mode not supported" ""] (some ⟨c.token, some (fileOpFailed .FILEOPEN)⟩)

/-- The branch for SDSRV. -/
def serverData (a : Agent) (c : WSNServerSocketData) : Agent × List Output :=
  match a.serverTcpConnections.get? c.token with
  | some t =>
    match t.get? c.connectiontoken with
    | some j => ({ a with incoming := .draining j c.data }, [.wrote j c.data])
    | none => a.sendAll [.SDSRV ⟨c.token, c.connectiontoken, [], "", 0⟩] none
  | none =>
    if a.serverQueues.contains c.token then a.return_ true
    else a.sendAll [errReply a.full c.token "Server token not found" ""] none

/-- The messages that no table claims. -/
def dispatch (a : Agent) (c : CMD) (f : FileOs) : Agent × List Output :=
  match c with
  | .SDSRV c => a.serverData c
  | .RESOLV c => { a with resolving := a.resolving ++ [(c.token, TaskState.waiting)] }.return_ true
  | .CONNECT c => { a with sessions := a.sessions ++ [Session.create a.full c] }.return_ true
  | .SD c => a.sendAll [errReply a.full c.token "Unexpected token for socket data!" ""] none
  | .GETINFO c => a.sendAll [.GETINFOREPLY { a.info with token := c.token }, okReply c.token] (some ⟨c.token, none⟩)
  | .FILEOPEN c => a.fileOpen c f
  | c =>
    if 300 ≤ c.type.value ∧ c.type.value < 320 then a.sendAll f.replies (some ⟨c.token, some (fileOpFailed c.type)⟩)
    else a.return_ true

/-- `process_incoming` on a decoded command. -/
def processIncoming (a : Agent) (c : CMD) (f : FileOs) : Agent × List Output :=
  match a.processQueues.get? c.token with
  | some i =>
    match a.sessions[i]? with
    | some ⟨cmd, .tcpClient t⟩ =>
      { a with sessions := a.sessions.set i ⟨cmd, .tcpClient { t with inQ := t.inQ ++ [c] }⟩ }.return_ true
    | _ => a.return_ true
  | none =>
    match a.fileQueues.get? c.token, decide (c.type = .OK) with
    | some k, true =>
      -- a `close` that raises has closed the file all the same
      if f.closeRaises then { a with files := a.files.set k false }.return_ false
      else { a with files := a.files.set k false, fileQueues := a.fileQueues.del c.token }.return_ true
    | _, _ =>
      if a.servers.contains c.token ∧ c.type = .OK then
        match a.serverTcpConnections.get? c.token with
        | some t => a.closeLoop c.token t.keys
        | none => a.closeServer c.token
      else a.dispatch c f

/-! ### The step -/

inductive Event
  /-- `process_incoming` is called with the bytes of a frame -/
  | recv (data : Bytes) (f : FileOs)
  /-- an await of `process_incoming` returns: a send, or a `drain` -/
  | sent
  | drained
  /-- it raises -/
  | sendFailed (exc : String)
  | drainFailed
  | session (i : Nat) (e : Session.Event)
  /-- a peer connects to the server that is session `i` -/
  | accept (i : Nat) (peername : Peername)
  | conn (j : Nat) (e : TCPServerConnection.Event)
  /-- the addresses of `resolve_addresses` task `k` are known, its reply is out, or the send raises -/
  | resolved (k : Nat) (addresses : List String)
  | resolveSent (k : Nat)
  | resolveFailed (k : Nat) (exc : String)

/-- The send in the `stop` of the connection `j` returns, or raises, which `stop` logs; then it goes on with `k`. -/
def stopDone (a : Agent) (j : Nat) (sent : Bool) (k : Agent → Agent × List Output) : Option (Agent × List Output) :=
  match a.conns[j]? with
  | some c =>
    let r := { a with incoming := .idle }.putConn j (c.endStop sent).1 (c.endStop sent).2
    some (andThen r.2 (k r.1))
  | none => none

/-- An await of `process_incoming` returns or raises. -/
def stepIncoming (a : Agent) : Event → Option (Agent × List Output)
  | .sent =>
    match a.incoming with
    | .sending rest onFail => some (a.sendAll rest onFail)
    | .closing token j rest => a.stopDone j true (·.closeLoop token rest)
    | .stopping j => a.stopDone j true (·.return_ true)
    | _ => none
  | .sendFailed exc =>
    match a.incoming with
    | .sending _ (some h) => some (a.sendAll [errReply a.full h.token (h.reason.getD exc) exc] none)
    | .sending _ none => some (a.return_ false)
    | .closing token j rest => a.stopDone j false (·.closeLoop token rest)
    | .stopping j => a.stopDone j false (·.return_ true)
    | _ => none
  | .drained =>
    match a.incoming with
    | .draining j data =>
      match a.conns[j]? with
      | some c => if data = [] then some (a.stopConn j c) else some (a.return_ true)
      | none => none
    | _ => none
  | .drainFailed =>
    match a.incoming with
    | .draining j _ =>
      match a.conns[j]? with
      | some c => some (a.stopConn j c)
      | none => none
    | _ => none
  | _ => none

def step (a : Agent) : Event → Option (Agent × List Output)
  | .recv data f =>
    if a.incoming = .idle then
      match CMD.fromBytes data with
      | .ok c => some (andThen [.received c] (a.processIncoming c f))
      | .error _ => some (a, [.returned true])
    else none
  | .session i e =>
    -- the queue of a session is filled by `process_incoming` alone
    if e.isPut then none
    else
      match a.sessions[i]? with
      | some s => (s.step e).map fun r => a.putSession i r.1 r.2
      | none => none
  | .accept i peername =>
    match a.sessions[i]? with
    | some ⟨_, .tcpServer t⟩ =>
      if t.listening then some ({ a with conns := a.conns ++ [{ token := t.token, peername }] }, []) else none
    | _ => none
  | .conn j (.start connectiontoken) =>
    match a.conns[j]? with
    | some c =>
      if connectiontoken = connectionId a.connId then
        (c.step (.start connectiontoken)).map fun r => { a with connId := a.connId + 1 }.putConn j r.1 r.2
      else none
    | none => none
  | .conn j e =>
    match a.conns[j]? with
    | some c => (c.step e).map fun r => a.putConn j r.1 r.2
    | none => none
  | .resolved k addresses =>
    match a.resolving[k]? with
    | some (token, .waiting) =>
      some ({ a with resolving := a.resolving.set k (token, .sending) }, [.sent (.RESOLV ⟨token, addresses⟩)])
    | _ => none
  | .resolveSent k =>
    match a.resolving[k]? with
    | some (token, .sending) => some ({ a with resolving := a.resolving.set k (token, .done) }, [])
    | _ => none
  | .resolveFailed k exc =>
    match a.resolving[k]? with
    | some (token, .sending) =>
      some ({ a with resolving := a.resolving.set k (token, .done) },
        [.sent (errReply a.full token "Resolve failed" exc)])
    | _ => none
  | e => a.stepIncoming e

end Agent

end Wsnet
