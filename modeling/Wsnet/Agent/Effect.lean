import Wsnet.Protocol.Cmd

/-!
# What the tasks of an agent do

A coroutine is a machine whose steps are the stretches of code between two awaits. What such a
stretch does to the world outside its own variables is a list of effects: messages handed to the
transport, bytes written to and read from a socket, and entries made in or removed from the tables
of the agent. A message counts as sent when `transport.send` is called; that call returning or
raising is an event of its own.
-/

namespace Wsnet

/-- `WSNOK(token)`, as `send_ok` builds it. -/
def okReply (token : Bytes) : CMD := .OK { token }

/-- `WSNContinue(token)`, as `send_continue` builds it. -/
def continueReply (token : Bytes) : CMD := .CONTINUE { token }

/-- The `WSNErr` of `send_err`; `full` is `send_full_exception` and `exc` the text of the exception. -/
def errReply (full : Bool) (token : Bytes) (reason exc : String) : CMD :=
  .ERR { token, reason, extra := if full then exc else "" }

@[simp] theorem type_okReply (t : Bytes) : (okReply t).type = .OK := rfl
@[simp] theorem type_continueReply (t : Bytes) : (continueReply t).type = .CONTINUE := rfl
@[simp] theorem type_errReply (f : Bool) (t : Bytes) (r e : String) : (errReply f t r e).type = .ERR := rfl
@[simp] theorem token_okReply (t : Bytes) : (okReply t).token = t := rfl
@[simp] theorem token_continueReply (t : Bytes) : (continueReply t).token = t := rfl
@[simp] theorem token_errReply (f : Bool) (t : Bytes) (r e : String) : (errReply f t r e).token = t := rfl

/-- What a stretch of a session's code does. -/
inductive Effect
  /-- `await self.send_data(c.to_bytes())` is called -/
  | sent (c : CMD)
  /-- the socket, datagram endpoint or listener that was asked for is open -/
  | opened
  /-- `writer.write(data)` -/
  | wrote (data : Bytes)
  /-- `reader.read(65536)` returned `data` -/
  | read (data : Bytes)
  /-- `self.__process_queues[token] = in_q` -/
  | setProcessQueue
  /-- `del self.__process_queues[token]` -/
  | delProcessQueue
  /-- `self.server_queues[token] = {}` and `self.server_queues[token][connectiontoken] = writer_queue` -/
  | setServerQueue (connectiontoken : Bytes)
  /-- `self.server_tcp_connections[token] = {}` -/
  | resetTcpConnections
  /-- `self.__servers[token] = task` -/
  | setServer
  deriving DecidableEq, Repr

/-- The messages among the effects. -/
def messages (os : List Effect) : List CMD :=
  os.filterMap fun
    | .sent c => some c
    | _ => none

@[simp] theorem messages_nil : messages [] = [] := rfl

@[simp] theorem messages_append (os os' : List Effect) : messages (os ++ os') = messages os ++ messages os' :=
  List.filterMap_append

end Wsnet
