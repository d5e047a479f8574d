import Wsnet.Agent.OpenSocket
import Wsnet.Agent.TcpClient
import Wsnet.Agent.TcpServer
import Wsnet.Agent.Udp

/-!
# The session of a CONNECT

`Session` is what a CONNECT command becomes: `socket_connect` in the branch that the command takes,
with the tasks this branch starts. The outcome of opening the socket is computed from what the
operating system makes of the calls of the branch (`Event.opening`); all other events are those of
the branch.
-/

namespace Wsnet

/-- `socket_connect` and the tasks it starts, by branch. -/
inductive SessionTask
  | tcpClient (s : TcpClient)
  | udpClient (s : UdpClient)
  | tcpServer (s : TcpServer)
  | udpServer (s : UdpServer)
  /-- a UDP bind for which there is no branch; the flag says that the coroutine is over -/
  | nothing (ended : Bool)
  deriving DecidableEq, Repr

structure Session where
  cmd : WSNConnect
  task : SessionTask
  deriving DecidableEq, Repr

namespace Session

/-- `asyncio.create_task(self.socket_connect(cmd))` in an agent whose `send_full_exception` is `full`. -/
def create (full : Bool) (c : WSNConnect) : Session where
  cmd := c
  task := match c.kind with
    | .tcpClient => .tcpClient { token := c.token, full }
    | .udpClient => .udpClient { token := c.token }
    | .tcpServer => .tcpServer { token := c.token, full, normal := true }
    | .tcpServerOther => .tcpServer { token := c.token, full, normal := false }
    | .udpServer | .llmnr | .nbtns | .mdns => .udpServer { token := c.token, full }
    | .udpServerOther => .nothing false

inductive Event
  /-- the calls that open the socket are made, and the operating system answers as `o` says -/
  | opening (o : Os)
  | tcpClient (e : TcpClient.Event)
  | udpClient (e : UdpClient.Event)
  | tcpServer (e : TcpServer.Event)
  | udpServer (e : UdpServer.Event)
  /-- the coroutine without a branch runs -/
  | nothing

/-- An event of a branch that is the outcome of opening the socket; it comes from `opening` only. -/
def Event.isOutcome : Event → Bool
  | .tcpClient (.main .opened) | .tcpClient (.main (.openFailed _)) => true
  | .udpClient .opened | .udpClient .openFailed => true
  | .tcpServer .opened | .tcpServer (.openFailed _) => true
  | .udpServer (.opened _) | .udpServer (.openFailed _) => true
  | _ => false

/-- A call of `transport.send` raises. -/
def Event.isSendFailed : Event → Bool
  | .tcpClient (.main (.sendFailed _)) | .tcpClient (.dataIn .sendFailed) => true
  | .udpClient .sendFailed => true
  | .tcpServer (.sendFailed _) => true
  | .udpServer (.sendFailed _) | .udpServer .runSendFailed => true
  | _ => false

/-- A command is put into the queue of a TCP client session. -/
def Event.isPut : Event → Bool
  | .tcpClient (.put _) => true
  | _ => false

/-- A step of the branch the session is in. -/
def stepTask : SessionTask → Event → Option (SessionTask × List Effect)
  | .tcpClient s, .tcpClient e => (s.step e).map fun r => (.tcpClient r.1, r.2)
  | .udpClient s, .udpClient e => (s.step e).map fun r => (.udpClient r.1, r.2)
  | .tcpServer s, .tcpServer e => (s.step e).map fun r => (.tcpServer r.1, r.2)
  | .udpServer s, .udpServer e => (s.step e).map fun r => (.udpServer r.1, r.2)
  | .nothing false, .nothing => some (.nothing true, [])
  | _, _ => none

/-- The event of the branch that an outcome of the calls is; `exc` is the exception they end with. -/
def outcome (s : Session) (o : Os) : Event :=
  match s.task, o.firstExc (openCalls s.cmd o) with
  | .tcpClient _, none => .tcpClient (.main .opened)
  | .tcpClient _, some exc => .tcpClient (.main (.openFailed exc))
  | .udpClient _, none => .udpClient .opened
  | .udpClient _, some _ => .udpClient .openFailed
  | .tcpServer _, none => .tcpServer .opened
  | .tcpServer _, some exc => .tcpServer (.openFailed exc)
  | .udpServer _, none => .udpServer (.opened (boundAfter s.cmd o))
  | .udpServer _, some exc => .udpServer (.openFailed exc)
  | .nothing _, _ => .opening o

def step (s : Session) (e : Event) : Option (Session × List Effect) :=
  match e with
  | .opening o => (stepTask s.task (s.outcome o)).map fun r => ({ s with task := r.1 }, r.2)
  | e => if e.isOutcome then none else (stepTask s.task e).map fun r => ({ s with task := r.1 }, r.2)

/-- `socket_connect` has returned. -/
def isOver (s : Session) : Bool :=
  match s.task with
  | .tcpClient s => s.main = .done
  | .udpClient s => s.main = .done
  | .tcpServer s => s.main = .done
  | .udpServer s => s.main = .done
  | .nothing ended => ended

/-! ### What a step does -/

/-- The steps of the branches. -/
inductive TaskStep : SessionTask → Event → SessionTask → List Effect → Prop
  | tcpClient {t t' : TcpClient} {e : TcpClient.Event} {o : List Effect} (h : t.step e = some (t', o)) :
    TaskStep (.tcpClient t) (.tcpClient e) (.tcpClient t') o
  | udpClient {t t' : UdpClient} {e : UdpClient.Event} {o : List Effect} (h : t.step e = some (t', o)) :
    TaskStep (.udpClient t) (.udpClient e) (.udpClient t') o
  | tcpServer {t t' : TcpServer} {e : TcpServer.Event} {o : List Effect} (h : t.step e = some (t', o)) :
    TaskStep (.tcpServer t) (.tcpServer e) (.tcpServer t') o
  | udpServer {t t' : UdpServer} {e : UdpServer.Event} {o : List Effect} (h : t.step e = some (t', o)) :
    TaskStep (.udpServer t) (.udpServer e) (.udpServer t') o
  | nothing : TaskStep (.nothing false) .nothing (.nothing true) []

theorem taskStep_of_stepTask {k k' : SessionTask} {e : Event} {o : List Effect} (h : stepTask k e = some (k', o)) :
    TaskStep k e k' o := by
  revert h
  fun_cases stepTask k e <;> intro h
  case case5 => cases h; exact .nothing
  case case6 => cases h
  all_goals obtain ⟨r, hr, he⟩ := Option.map_eq_some_iff.1 h; cases he
  exacts [.tcpClient hr, .udpClient hr, .tcpServer hr, .udpServer hr]

/-- The event a session event is for its branch. -/
def taskEvent (s : Session) : Event → Event
  | .opening o => s.outcome o
  | e => e

theorem step_eq_some {s s' : Session} {e : Event} {o : List Effect} (h : s.step e = some (s', o)) :
    s'.cmd = s.cmd ∧ TaskStep s.task (s.taskEvent e) s'.task o := by
  have hm : (stepTask s.task (s.taskEvent e)).map (fun r => ({ s with task := r.1 }, r.2)) = some (s', o) := by
    cases e <;> simp only [step, taskEvent] at h ⊢ <;> try split at h
    all_goals first | exact h | cases h
  obtain ⟨r, hr, hs⟩ := Option.map_eq_some_iff.1 hm
  cases hs
  exact ⟨rfl, taskStep_of_stepTask hr⟩

/-- An outcome of opening the socket comes from `opening`. -/
theorem opening_of_isOutcome {s s' : Session} {e : Event} {o : List Effect} (h : s.step e = some (s', o))
    (he : (s.taskEvent e).isOutcome = true) : ∃ os, e = .opening os := by
  cases e with
  | opening os => exact ⟨os, rfl⟩
  | _ => simp only [taskEvent] at he; simp [step, he] at h

theorem isOutcome_outcome {s : Session} {o : Os} (h : ∀ b, s.task ≠ .nothing b) : (s.outcome o).isOutcome = true := by
  fun_cases outcome s o <;> simp_all [Event.isOutcome]

end Session

end Wsnet
