import Wsnet.Lib.Run
import Wsnet.Agent.Effect

/-!
# A TCP server session and its connections

`TcpServer` is `socket_connect` in its branches for a TCP bind and the `serve_forever` task it
leaves in `__servers`. `TCPServerConnection` is one accepted connection: the task `run` and the
coroutine `stop`, which `run` awaits in its `finally` and `process_incoming` awaits from outside, so
that a connection may be inside two calls of `stop` at once; the first of them sets
`disconnected_evt` and does the work. A `stop` is two segments: up to the send, and after it.
-/

namespace Wsnet

/-! ### The server -/

inductive TcpServer.Main
  | created | opening | sendingContinue | sendingErr | done
  deriving DecidableEq, Repr

/-- `serve_forever`: not created, created, waiting, over. -/
inductive TcpServer.Serve
  | none | created | serving | done
  deriving DecidableEq, Repr

structure TcpServer where
  token : Bytes
  full : Bool
  /-- `cmd.bindtype == 1` -/
  normal : Bool
  main : TcpServer.Main := .created
  serve : TcpServer.Serve := .none
  /-- the listening sockets are open -/
  listening : Bool := false
  /-- `__servers[token].cancel()` was called -/
  cancelled : Bool := false
  deriving DecidableEq, Repr

namespace TcpServer

inductive Event
  | start
  | opened
  | openFailed (exc : String)
  | sent
  | sendFailed (exc : String)
  | serveStart
  | serveCancel
  deriving DecidableEq, Repr

def fail (s : TcpServer) (exc : String) : TcpServer × List Effect :=
  ({ s with main := .sendingErr }, [.sent (errReply s.full s.token ("Socket connect failed: " ++ exc) exc)])

/-- What Python says of `self.send_err(cmd, 'Selected bindtype not implemented for TCP')`. -/
def missingArgument : String := "WSNETAgent.send_err() missing 1 required positional argument: 'exc'"

def step (s : TcpServer) : Event → Option (TcpServer × List Effect)
  | .start =>
    if s.main = .created then
      if s.normal then some ({ s with main := .opening }, [.resetTcpConnections])
      else some (s.fail missingArgument)
    else none
  | .opened =>
    if s.main = .opening then
      some ({ s with main := .sendingContinue, listening := true }, [.opened, .sent (continueReply s.token)])
    else none
  | .openFailed exc => if s.main = .opening then some (s.fail exc) else none
  | .sent =>
    match s.main with
    | .sendingContinue => some ({ s with main := .done, serve := .created }, [.setServer])
    | .sendingErr => some ({ s with main := .done }, [])
    | _ => none
  | .sendFailed exc =>
    match s.main with
    | .sendingContinue => some (s.fail exc)
    | .sendingErr => some ({ s with main := .done }, [])
    | _ => none
  | .serveStart => if s.serve = .created ∧ ¬ s.cancelled then some ({ s with serve := .serving }, []) else none
  | .serveCancel =>
    if s.cancelled then
      match s.serve with
      -- a task that is cancelled before it starts does not get to its `finally`, which closes the sockets
      | .created => some ({ s with serve := .done }, [])
      | .serving => some ({ s with serve := .done, listening := false }, [])
      | _ => none
    else none

variable {s s' : TcpServer} {e : Event} {o : List Effect}

theorem token_of_step (h : s.step e = some (s', o)) : s'.token = s.token := by
  revert h
  fun_cases step s e <;> rintro ⟨⟩ <;> rfl

/-- `socket_connect` has not come to an answer. -/
def Pending (s : TcpServer) : Prop := s.main = .created ∨ s.main = .opening

/-- The steps up to the answer. -/
theorem step_of_pending (hm : s.Pending) (hs : s.serve = .none) (h : s.step e = some (s', o)) :
    (e = .start ∧ s.normal = true ∧ s' = { s with main := .opening } ∧ o = [.resetTcpConnections]) ∨
      (∃ exc, (e = .start ∨ e = .openFailed exc) ∧ s' = (s.fail exc).1 ∧ o = (s.fail exc).2) ∨
        (e = .opened ∧ s' = { s with main := .sendingContinue, listening := true } ∧
          o = [.opened, .sent (continueReply s.token)]) := by
  revert h
  fun_cases step s e <;> rintro ⟨⟩ <;> first
    | exact .inr (.inl ⟨_, .inl rfl, rfl, rfl⟩) | exact .inr (.inl ⟨_, .inr rfl, rfl, rfl⟩) | simp_all [Pending]

/-- Behind the answer the table of connections is left alone. -/
theorem step_of_not_pending (hm : ¬ s.Pending) (h : s.step e = some (s', o)) :
    ¬ s'.Pending ∧ ∀ x ∈ o, (∃ c, x = .sent c) ∨ x = .setServer := by
  revert h
  fun_cases step s e <;> rintro ⟨⟩ <;> simp_all [Pending]

end TcpServer

/-! ### A connection -/

/-- `get_extra_info('peername')`: `None`, a `(host, port)` pair, or the 4-tuple of IPv6. -/
inductive Peername
  | none
  | pair (host : String) (port : Int)
  | other
  deriving DecidableEq, Repr

/-- Where the task `run` of a connection is. -/
inductive ConnRun
  /-- the callback of the server is scheduled and has not started -/
  | accepted
  /-- the first message is being sent -/
  | opening
  | reading
  | sendingData (data : Bytes)
  /-- in `stop`, awaiting its send -/
  | stopping
  | done
  deriving DecidableEq, Repr

structure TCPServerConnection where
  /-- the token of the server -/
  token : Bytes
  connectiontoken : Bytes := []
  peername : Peername
  run : ConnRun := .accepted
  /-- `disconnected_evt` is set -/
  disconnected : Bool := false
  /-- `writer.close()` was called -/
  closed : Bool := false
  deriving DecidableEq, Repr

namespace TCPServerConnection

/-- What the code of a connection does to the world. -/
inductive Effect
  | sent (c : WSNServerSocketData)
  /-- `self.agent.server_tcp_connections[self.token][self.connectiontoken] = self` -/
  | register
  /-- `del self.agent.server_tcp_connections[self.token][self.connectiontoken]` -/
  | unregister
  /-- `reader.read(65536)` returned `data` -/
  | read (data : Bytes)
  deriving DecidableEq, Repr

inductive Event
  /-- the callback starts; `connectiontoken` is what `get_connection_id` returns -/
  | start (connectiontoken : Bytes)
  | sent
  | sendFailed
  | read (data : Bytes)
  | readFailed
  /-- `run_with_cancellation` sees the event -/
  | cancelled
  deriving DecidableEq, Repr

/-- The message that says that the connection is closed (and, to a client that does not know it, opened). -/
def emptyMessage (c : TCPServerConnection) : WSNServerSocketData := ⟨c.token, c.connectiontoken, [], "", 0⟩

/-- `stop` up to its send: nothing but `writer.close()` when the event is set already. -/
def beginStop (c : TCPServerConnection) : TCPServerConnection × List Effect :=
  if c.disconnected then ({ c with closed := true }, [])
  else ({ c with disconnected := true }, [.sent c.emptyMessage])

/-- `stop` after its send: the entry is removed unless the send raised, and the writer closed. -/
def endStop (c : TCPServerConnection) (sent : Bool) : TCPServerConnection × List Effect :=
  ({ c with closed := true }, if sent then [.unregister] else [])

/-- `finally: await self.stop()` in `run`. -/
def finish (c : TCPServerConnection) : TCPServerConnection × List Effect :=
  if c.disconnected then ({ c.beginStop.1 with run := .done }, c.beginStop.2)
  else ({ c.beginStop.1 with run := .stopping }, c.beginStop.2)

/-- `while not self.disconnected_evt.is_set()` -/
def loop (c : TCPServerConnection) : TCPServerConnection × List Effect :=
  if c.disconnected then c.finish else ({ c with run := .reading }, [])

def step (c : TCPServerConnection) : Event → Option (TCPServerConnection × List Effect)
  | .start connectiontoken =>
    if c.run = .accepted then
      match c.peername with
      | .pair host port =>
        some ({ c with connectiontoken, run := .opening },
          [.register, .sent ⟨c.token, connectiontoken, [], host, port⟩])
      -- unpacking raises, and the logging in `except` and in `finally` raises again, on unbound names:
      -- the task ends without a `stop`
      | _ => some ({ c with connectiontoken, run := .done }, [.register])
    else none
  | .sent =>
    match c.run with
    | .opening => some c.loop
    | .sendingData data => if data = [] then some c.finish else some c.loop
    | .stopping => some ({ c with run := .done }.endStop true)
    | _ => none
  | .sendFailed =>
    match c.run with
    | .opening | .sendingData _ => some c.finish
    | .stopping => some ({ c with run := .done }.endStop false)
    | _ => none
  | .read data =>
    if c.run = .reading then
      some ({ c with run := .sendingData data }, [.read data, .sent ⟨c.token, c.connectiontoken, data, "", 0⟩])
    else none
  | .readFailed => if c.run = .reading then some c.finish else none
  | .cancelled => if c.run = .reading ∧ c.disconnected then some c.finish else none

variable {c c' : TCPServerConnection} {e : Event} {o : List Effect}

@[simp] theorem token_beginStop (c : TCPServerConnection) : c.beginStop.1.token = c.token := by
  unfold beginStop; split <;> rfl

@[simp] theorem connectiontoken_beginStop (c : TCPServerConnection) :
    c.beginStop.1.connectiontoken = c.connectiontoken := by
  unfold beginStop; split <;> rfl

@[simp] theorem run_beginStop (c : TCPServerConnection) : c.beginStop.1.run = c.run := by
  unfold beginStop; split <;> rfl

@[simp] theorem disconnected_beginStop (c : TCPServerConnection) : c.beginStop.1.disconnected = true := by
  unfold beginStop; split <;> simp_all

theorem closed_beginStop (h : c.closed = true ∨ c.disconnected = true) : c.beginStop.1.closed = true := by
  unfold beginStop; split <;> simp_all

theorem closed_finish (h : c.closed = true) : c.finish.1.closed = true := by
  unfold finish; split <;> exact closed_beginStop (.inl h)

theorem closed_loop (h : c.closed = true) : c.loop.1.closed = true := by
  unfold loop
  split
  · exact closed_finish h
  · exact h

theorem closed_of_step (h : c.step e = some (c', o)) (hc : c.closed = true) : c'.closed = true := by
  revert h
  fun_cases step c e <;> intro h <;> try cases h <;> exact hc
  all_goals obtain rfl := congrArg Prod.fst (Option.some.inj h)
  all_goals first | exact closed_finish hc | exact closed_loop hc | rfl

end TCPServerConnection

end Wsnet
