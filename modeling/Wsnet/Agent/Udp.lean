import Wsnet.Lib.Run
import Wsnet.Agent.Effect

/-!
# UDP sessions

`UdpClient` is `socket_connect` in its branch for a UDP connection, with the task `handle_udp_writer`
it starts. `UdpServer` is `socket_connect` in its branches for a UDP bind (normal, LLMNR, NBTNS and
MDNS differ in the calls that open the socket only), which start a `UDPConnHandler` and end; the
handler is three tasks, `run`, `disconnect_watchdog` and `handle_udp_writer`, any of which may call
`terminate`. The queues of datagrams and of outgoing data are not part of the state: what a task
takes from its queue is part of the event.
-/

namespace Wsnet

/-- What `UDPServerProtocol` puts into the queue: a datagram and where it is from, or `(None, exc)`
with an exception or `None`. -/
inductive Datagram
  | data (data : Bytes) (ip : String) (port : Int)
  | error (exc : Option String)
  deriving DecidableEq, Repr

/-- How far a task is. -/
inductive TaskState
  | none | created | waiting | sending | done
  deriving DecidableEq, Repr

/-- `asyncio.create_task` was called and the task is not over. -/
def TaskState.isLive : TaskState → Bool
  | .created | .waiting | .sending => true
  | _ => false

/-! ### Client -/

inductive UdpClient.Main
  | opening | sendingContinue | receiving | sendingData | done
  deriving DecidableEq, Repr

structure UdpClient where
  token : Bytes
  main : UdpClient.Main := .opening
  /-- `handle_udp_writer` -/
  writer : TaskState := .none
  /-- `disconnected_evt` is set -/
  disconnected : Bool := false
  /-- `servertransport.close()` was called -/
  closed : Bool := false
  deriving DecidableEq, Repr

namespace UdpClient

inductive Event
  | opened
  | openFailed
  | sent
  | sendFailed
  | received (d : Datagram)
  | writerStart
  /-- the writer takes a message; `sendto` may raise -/
  | writerGot (data : Bytes) (raises : Bool)
  deriving DecidableEq, Repr

/-- `b'\x00'*16` -/
def connectionToken : Bytes := List.replicate 16 0

/-- Back to `while not disconnected_evt.is_set()`. -/
def loop (s : UdpClient) : UdpClient :=
  if s.disconnected then { s with main := .done, closed := true } else { s with main := .receiving }

def step (s : UdpClient) : Event → Option (UdpClient × List Effect)
  | .opened =>
    if s.main = .opening then
      some ({ s with main := .sendingContinue, writer := .created },
        [.opened, .setServerQueue connectionToken, .sent (continueReply s.token)])
    else none
  -- the `except` around the branch prints the exception and nothing else
  | .openFailed => if s.main = .opening then some ({ s with main := .done }, []) else none
  | .sent =>
    match s.main with
    | .sendingContinue | .sendingData => some (s.loop, [])
    | _ => none
  | .sendFailed =>
    match s.main with
    | .sendingContinue | .sendingData => some ({ s with main := .done }, [])
    | _ => none
  | .received (.data data ip port) =>
    if s.main = .receiving then
      some ({ s with main := .sendingData }, [.sent (.SDSRV ⟨s.token, connectionToken, data, ip, port⟩)])
    else none
  | .received (.error (some _)) => if s.main = .receiving then some (s.loop, []) else none
  -- `addr[0]` of `None` raises
  | .received (.error none) => if s.main = .receiving then some ({ s with main := .done }, []) else none
  | .writerStart =>
    if s.writer = .created then
      some (if s.disconnected then { s with writer := .done } else { s with writer := .waiting }, [])
    else none
  | .writerGot data raises =>
    if s.writer = .waiting then
      if data = [] ∨ raises then some ({ s with writer := .done, disconnected := true }, [])
      else some (if s.disconnected then { s with writer := .done } else s, [])
    else none

variable {s s' : UdpClient} {e : Event} {o : List Effect}

theorem loop_main (s : UdpClient) : s.loop.main = .done ∨ s.loop.main = .receiving := by
  unfold loop; split <;> simp

@[simp] theorem loop_token (s : UdpClient) : s.loop.token = s.token := by unfold loop; split <;> rfl

@[simp] theorem loop_writer (s : UdpClient) : s.loop.writer = s.writer := by unfold loop; split <;> rfl

theorem token_of_step (h : s.step e = some (s', o)) : s'.token = s.token := by
  revert h
  fun_cases step s e <;> rintro ⟨⟩ <;> first | rfl | exact loop_token s | (split <;> rfl)

/-- Before the socket is open its two outcomes are the only steps. -/
theorem step_of_opening (hm : s.main = .opening) (hw : s.writer = .none) (h : s.step e = some (s', o)) :
    (e = .opened ∧ s' = { s with main := .sendingContinue, writer := .created } ∧
        o = [.opened, .setServerQueue connectionToken, .sent (continueReply s.token)]) ∨
      (e = .openFailed ∧ s' = { s with main := .done } ∧ o = []) := by
  revert h
  fun_cases step s e <;> rintro ⟨⟩ <;> simp_all

/-- After that it stays so, and the tables are left alone. -/
theorem step_of_ne_opening (hm : s.main ≠ .opening) (h : s.step e = some (s', o)) :
    s'.main ≠ .opening ∧ e ≠ .opened ∧ e ≠ .openFailed ∧ ∀ x ∈ o, ∃ c, x = .sent c := by
  have hl := loop_main s
  revert h
  fun_cases step s e <;> rintro ⟨⟩ <;> (try split) <;> simp_all
  all_goals rcases hl with hl | hl <;> simp [hl]

/-- A session that did not open does nothing any more. -/
theorem step_of_done (hm : s.main = .done) (hw : s.writer = .none ∨ s.writer = .done) : s.step e = none := by
  fun_cases step s e <;> simp_all

end UdpClient

/-! ### Server -/

inductive UdpServer.Main
  | opening | sendingContinue | sendingErr | done
  deriving DecidableEq, Repr

structure UdpServer where
  token : Bytes
  full : Bool
  main : UdpServer.Main := .opening
  /-- `UDPConnHandler.run`, the task in `__servers` -/
  run : TaskState := .none
  watchdog : TaskState := .none
  writer : TaskState := .none
  /-- `__servers[token].cancel()` was called and its exception is not delivered yet -/
  runCancelled : Bool := false
  watchdogCancelled : Bool := false
  writerCancelled : Bool := false
  /-- the handler's `_running` -/
  running : Bool := true
  disconnected : Bool := false
  /-- how often `transport.close()` was called -/
  closes : Nat := 0
  deriving DecidableEq, Repr

namespace UdpServer

inductive Event
  | opened (bound : Bool)
  | openFailed (exc : String)
  | sent
  | sendFailed (exc : String)
  | runStart
  | runReceived (d : Datagram)
  | runSent
  | runSendFailed
  | runCancel
  | watchdogStart
  | watchdogWake
  | watchdogCancel
  | writerStart
  | writerGot (data : Bytes) (raises : Bool)
  | writerCancel
  deriving DecidableEq, Repr

/-- `b'1'*16` -/
def connectionToken : Bytes := List.replicate 16 0x31

/-- `except Exception` of `socket_connect`. -/
def fail (s : UdpServer) (exc : String) : UdpServer × List Effect :=
  ({ s with main := .sendingErr }, [.sent (errReply s.full s.token ("Socket connect failed: " ++ exc) exc)])

/-- `UDPConnHandler.terminate` -/
def terminate (s : UdpServer) : UdpServer :=
  if s.running then
    { s with
      running := false
      disconnected := true
      closes := s.closes + 1
      watchdogCancelled := s.watchdogCancelled || s.watchdog.isLive
      writerCancelled := s.writerCancelled || s.writer.isLive }
  else s

def step (s : UdpServer) : Event → Option (UdpServer × List Effect)
  | .opened bound =>
    if s.main = .opening then
      some ({ s with main := .sendingContinue, run := .created },
        (if bound then [Effect.opened] else []) ++
          [.setServer, .setServerQueue connectionToken, .sent (continueReply s.token)])
    else none
  | .openFailed exc => if s.main = .opening then some (s.fail exc) else none
  | .sent =>
    match s.main with
    | .sendingContinue | .sendingErr => some ({ s with main := .done }, [])
    | _ => none
  | .sendFailed exc =>
    match s.main with
    | .sendingContinue => some (s.fail exc)
    | .sendingErr => some ({ s with main := .done }, [])
    | _ => none
  | .runStart =>
    if s.run = .created ∧ ¬ s.runCancelled then
      some ({ s with run := .waiting, watchdog := .created, writer := .created }, [])
    else none
  | .runReceived d =>
    if s.run = .waiting ∧ ¬ s.runCancelled then
      match d with
      | .data data ip port =>
        some ({ s with run := .sending }, [.sent (.SDSRV ⟨s.token, connectionToken, data, ip, port⟩)])
      | .error _ => some ({ s with run := .done }.terminate, [])
    else none
  | .runSent => if s.run = .sending ∧ ¬ s.runCancelled then some ({ s with run := .waiting }, []) else none
  | .runSendFailed => if s.run = .sending ∧ ¬ s.runCancelled then some ({ s with run := .done }.terminate, []) else none
  | .runCancel =>
    if s.runCancelled then
      match s.run with
      | .created => some ({ s with run := .done, runCancelled := false }, [])
      | .waiting | .sending => some ({ s with run := .done, runCancelled := false }.terminate, [])
      | _ => none
    else none
  | .watchdogStart =>
    if s.watchdog = .created ∧ ¬ s.watchdogCancelled then some ({ s with watchdog := .waiting }, []) else none
  | .watchdogWake =>
    if s.watchdog = .waiting ∧ s.disconnected ∧ ¬ s.watchdogCancelled then
      some ({ s with watchdog := .done }.terminate, [])
    else none
  | .watchdogCancel =>
    if s.watchdogCancelled ∧ s.watchdog.isLive then some ({ s with watchdog := .done, watchdogCancelled := false }, [])
    else none
  | .writerStart =>
    if s.writer = .created ∧ ¬ s.writerCancelled then some ({ s with writer := .waiting }, []) else none
  | .writerGot data raises =>
    if s.writer = .waiting ∧ ¬ s.writerCancelled then
      if data = [] ∨ raises then some ({ s with writer := .done }.terminate, []) else some (s, [])
    else none
  | .writerCancel =>
    if s.writerCancelled then
      match s.writer with
      | .created => some ({ s with writer := .done, writerCancelled := false }, [])
      | .waiting => some ({ s with writer := .done, writerCancelled := false }.terminate, [])
      | _ => none
    else none

variable {s s' : UdpServer} {e : Event} {o : List Effect}

@[simp] theorem terminate_token (s : UdpServer) : s.terminate.token = s.token := by unfold terminate; split <;> rfl

@[simp] theorem terminate_main (s : UdpServer) : s.terminate.main = s.main := by unfold terminate; split <;> rfl

theorem token_of_step (h : s.step e = some (s', o)) : s'.token = s.token := by
  revert h
  fun_cases step s e <;> rintro ⟨⟩ <;> first | rfl | exact terminate_token _

/-- Before the socket is open its two outcomes are the only steps. -/
theorem step_of_opening (hm : s.main = .opening) (hr : s.run = .none) (hw : s.writer = .none) (hd : s.watchdog = .none)
    (h : s.step e = some (s', o)) :
    (∃ bound, e = .opened bound ∧ s' = { s with main := .sendingContinue, run := .created } ∧
        o = (if bound then [Effect.opened] else []) ++
          [.setServer, .setServerQueue connectionToken, .sent (continueReply s.token)]) ∨
      (∃ exc, e = .openFailed exc ∧ s' = (s.fail exc).1 ∧ o = (s.fail exc).2) := by
  revert h
  fun_cases step s e <;> rintro ⟨⟩ <;> simp_all [TaskState.isLive, fail]

/-- After that it stays so, and the tables are left alone. -/
theorem step_of_ne_opening (hm : s.main ≠ .opening) (h : s.step e = some (s', o)) :
    s'.main ≠ .opening ∧ (∀ bound, e ≠ .opened bound) ∧ (∀ exc, e ≠ .openFailed exc) ∧ ∀ x ∈ o, ∃ c, x = .sent c := by
  revert h
  fun_cases step s e <;> rintro ⟨⟩ <;> simp_all

end UdpServer

end Wsnet
