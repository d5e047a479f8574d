import Wsnet.Lib.Dict
import Wsnet.Pyodide.Senders
import Wsnet.Pyodide.ServerReader

/-!
# The client of a bound TCP server

`WSNetworkTCPServer` is its `connect` and then `__handle_in`, which takes the messages from `internal_in_q` one by
one. The first message of a connection makes a queue, a reader and a handler (`handle_new_connection`), and
each later one goes into the queue (`handle_new_msg`). Of what a handler does, the calls of its reader are
steps here; its writer appears only as whoever sets the event that the reader and the writer share.

There are two ways to shut down. `close` tells every peer and every handler; `terminate`, which is meant to do the
same, awaits what `write` returns, which is `None`, and so ends with the first writer (`wakes_iff`).
-/

namespace Wsnet.Pyodide

/-- The task `handle_client_cb(reader, writer)`, and the queue of its reader; `initial_cmd` is kept by the writer. -/
structure Handler where
  initial_cmd : WSNServerSocketData
  in_queue : List QueueItem := []
  reader : WSNetworkServerTCPReader := {}

namespace Handler

def connectiontoken (h : Handler) : Bytes := h.initial_cmd.connectiontoken

/-- The reader gets what is first in the queue. -/
def step (h : Handler) (e : WSNetworkServerTCPReader.Event) : Option (Handler × List WSNetworkServerTCPReader.Output) :=
  match e, h.in_queue with
  | .item i, i' :: in_queue =>
    if i = i' then (h.reader.step (.item i)).map fun r => ({ h with reader := r.1, in_queue }, r.2) else none
  | .item _, [] => none
  | e, _ => (h.reader.step e).map fun r => ({ h with reader := r.1 }, r.2)

/-- `await self.connections[cmd.connectiontoken].put((cmd, None))` -/
def put (h : Handler) (cmd : WSNServerSocketData) : Handler := { h with in_queue := h.in_queue ++ [⟨some cmd, none⟩] }

/-- `put((None, Exception(err)))` -/
def putErr (h : Handler) (err : String) : Handler := { h with in_queue := h.in_queue ++ [⟨none, some err⟩] }

end Handler

/-- Where the coroutine is that reads `internal_in_q`. -/
inductive WSNetworkTCPServer.Pc
  /-- in `connect`, before the answer to the CONNECT -/
  | connecting
  /-- `run` has returned `(False, err)` -/
  | failed
  /-- `__handle_in` waits for a message -/
  | getting
  /-- in the `await writer.run()` for the connection that this message opens -/
  | opening (cmd : WSNServerSocketData)
  /-- `__handle_in` is over -/
  | done
  deriving DecidableEq, Repr

/-- A `WSNetworkTCPServer` with its `server`, a `WSNetworkServerTCPServer`. -/
structure WSNetworkTCPServer where
  token : Bytes
  ip : String
  port : Int
  bindtype : Int := 1
  pc : WSNetworkTCPServer.Pc := .connecting
  /-- `disconnected_evt` is set -/
  disconnected : Bool := false
  closed_evt : Bool := false
  /-- `self.in_task.cancel()` has been called -/
  in_cancelled : Bool := false
  /-- `self.ws` is not `None` -/
  ws : Bool := true
  /-- for each connection token the handler whose queue it is; `self.writers` has the same keys -/
  connections : Dict Bytes Nat := Dict.empty
  handlers : List Handler := []

namespace WSNetworkTCPServer

inductive Event
  /-- `self.internal_in_q.get()` returns -/
  | message (data : Bytes)
  /-- `writer.run()` returns -/
  | opened
  /-- the websocket closes -/
  | disconnect
  /-- `terminate()` is called -/
  | terminate
  /-- `close()` of the server is called -/
  | close
  /-- the task of `__handle_in` runs with the `CancelledError` of a `terminate()` -/
  | cancelled
  /-- a step of the reader of the handler `k` -/
  | reader (k : Nat) (e : WSNetworkServerTCPReader.Event)
  deriving DecidableEq, Repr

inductive Output
  /-- `js.sendWebSocketData(self.ws, b)` -/
  | frame (b : Bytes)
  /-- of the reader of the handler `k` -/
  | reader (k : Nat) (o : WSNetworkServerTCPReader.Output)
  /-- how `terminate()` ends -/
  | terminated (r : Except PyErr Unit)

/-- The command that `connect` sends. -/
def connectCmd (s : WSNetworkTCPServer) : CMD :=
  .CONNECT { token := s.token, protocol := "TCP", ip := s.ip, port := s.port, bind := true, bindtype := s.bindtype }

/-- What is sent and raised by one piece of code and another behind it, which a raise skips. -/
def andThen (x y : List Bytes × Option PyErr) : List Bytes × Option PyErr :=
  match x.2 with
  | some e => (x.1, some e)
  | none => (x.1 ++ y.1, y.2)

/-- `await` of the `None` that `write` returns. -/
def awaitNone : List Bytes × Option PyErr := ([], some .typeError)

/-- The loop of the server's `terminate` over the writers. -/
def terminateWriters (token : Bytes) : List Bytes → List Bytes × Option PyErr
  | [] => ([], none)
  | connectiontoken :: rest =>
    andThen (andThen (WSNetworkServerTCPWriter.write token connectiontoken []) awaitNone) (terminateWriters token rest)

/-- The loop of `close` over the writers. -/
def closeWriters (token : Bytes) : List Bytes → List Bytes × Option PyErr
  | [] => ([], none)
  | connectiontoken :: rest =>
      andThen (WSNetworkServerTCPWriter.write token connectiontoken []) (closeWriters token rest)

/-- The loops of both over the queues. -/
def putAll (s : WSNetworkTCPServer) (err : String) : WSNetworkTCPServer :=
  { s with handlers := s.connections.values.foldl (fun hs k => hs.modify k (·.putErr err)) s.handlers }

/-- `terminate`, with the `terminate` of the server if there is one. -/
def terminate (s : WSNetworkTCPServer) : WSNetworkTCPServer × List Output :=
  if s.pc = .connecting ∨ s.pc = .failed then ({ s with ws := false }, [.terminated (.ok ())])
  else
    match terminateWriters s.token s.connections.keys with
    | (sent, some e) => (s, sent.map .frame ++ [.terminated (.error e)])
    | (sent, none) =>
      ({ s.putAll "Server is terminating!" with in_cancelled := true, ws := false },
        sent.map .frame ++ [.terminated (.ok ())])

/-- `WSNetworkServerTCPServer.close` -/
def close (s : WSNetworkTCPServer) : WSNetworkTCPServer × List Output :=
  match closeWriters s.token s.connections.keys with
  | (sent, some _) => (s, (sent ++ trySend (.OK { token := s.token })).map .frame)
  | (sent, none) =>
    ({ s.putAll "Server is terminating!" with closed_evt := true },
    (sent ++ trySend (.OK { token := s.token })).map .frame)

/-- `finally: await self.terminate()` in `__handle_in`, and its end. -/
def finish (s : WSNetworkTCPServer) : WSNetworkTCPServer × List Output :=
  ({ s.terminate.1 with pc := .done }, s.terminate.2)

/-- `while not self.disconnected_evt.is_set()` -/
def loop (s : WSNetworkTCPServer) : WSNetworkTCPServer × List Output :=
  if s.disconnected then s.finish else ({ s with pc := .getting }, [])

/-- `connect` behind the `get` of the answer, and the rest of `run`, to the first `get` of `__handle_in`. -/
def answer (s : WSNetworkTCPServer) (data : Bytes) : WSNetworkTCPServer × List Output :=
  match CMD.fromBytes data with
  | .ok (.CONTINUE _) => { s with pc := .getting }.loop
  | _ => ({ s with pc := .failed }, [])

/-- `handle_new_connection` behind the `await writer.run()` -/
def handle_new_connection (s : WSNetworkTCPServer) (cmd : WSNServerSocketData) : WSNetworkTCPServer :=
  { s with
    connections := s.connections.set cmd.connectiontoken s.handlers.length
    handlers := s.handlers ++ [{ initial_cmd := cmd }] }

/-- `await self.connections[cmd.connectiontoken].put((cmd, None))` -/
def put (s : WSNetworkTCPServer) (cmd : WSNServerSocketData) : WSNetworkTCPServer :=
  match s.connections.get? cmd.connectiontoken with
  | some k => { s with handlers := s.handlers.modify k (·.put cmd) }
  | none => s

def handle_new_msg (s : WSNetworkTCPServer) (cmd : WSNServerSocketData) : WSNetworkTCPServer × List Output :=
  if s.connections.contains cmd.connectiontoken then (s.put cmd).loop else ({ s with pc := .opening cmd }, [])

/-- `handle_new_msg` behind the `await self.handle_new_connection(cmd)` -/
def opened (s : WSNetworkTCPServer) (cmd : WSNServerSocketData) : WSNetworkTCPServer × List Output :=
  if cmd.data = [] then (s.handle_new_connection cmd).loop else ((s.handle_new_connection cmd).put cmd).loop

/-- `__handle_in` behind its `get`. -/
def handle_in (s : WSNetworkTCPServer) (data : Bytes) : WSNetworkTCPServer × List Output :=
  match CMD.fromBytes data with
  | .ok (.SDSRV cmd) => s.handle_new_msg cmd
  | .ok (.OK _) | .ok (.ERR _) => s.finish
  | .ok _ => s.loop
  | .error _ => s.finish

def step (s : WSNetworkTCPServer) : Event → Option (WSNetworkTCPServer × List Output)
  | .message data =>
    match s.pc with
    | .connecting => some (s.answer data)
    | .getting => if s.in_cancelled then none else some (s.handle_in data)
    | _ => none
  | .opened =>
    match s.pc with
    | .opening cmd => if s.in_cancelled then none else some (s.opened cmd)
    | _ => none
  | .disconnect => some ({ s with disconnected := true }, [])
  | .terminate => some s.terminate
  | .close => if s.pc = .connecting ∨ s.pc = .failed then none else some s.close
  | .cancelled => if s.in_cancelled ∧ s.pc ≠ .done then some s.finish else none
  | .reader k e =>
    match s.handlers[k]? with
    | some h => (h.step e).map fun r => ({ s with handlers := s.handlers.set k r.1 }, r.2.map (.reader k))
    | none => none

/-! ### Shutting down -/

variable {s s' : WSNetworkTCPServer} {e : Event} {o : List Output}

/-- The client has a server, whose task runs or has run. -/
def Serves (s : WSNetworkTCPServer) : Prop := s.pc ≠ .connecting ∧ s.pc ≠ .failed

/-- `terminate()` is called, or the agent's `OK` or `ERR` reaches `__handle_in`. -/
def ShutsDown (s : WSNetworkTCPServer) (e : Event) : Prop :=
  e = .terminate ∨ s.pc = .getting ∧ ∃ data cmd, e = .message data ∧ CMD.fromBytes data = .ok cmd ∧
    (cmd.type = .OK ∨ cmd.type = .ERR)

/-- Every handler is woken and every peer told, and nothing is left of the server. -/
structure WakesAll (s s' : WSNetworkTCPServer) (o : List Output) : Prop where
  returns : .terminated (.ok ()) ∈ o
  queues : ∀ k ∈ s.connections.values, ∃ h h' items, s.handlers[k]? = some h ∧ s'.handlers[k]? = some h' ∧
    h'.in_queue = h.in_queue ++ items ∧ ∃ i ∈ items, i.err ≠ none
  sent : ∀ connectiontoken ∈ s.connections.keys, ∃ b, .frame b ∈ o ∧
    (CMD.SDSRV { token := s.token, connectiontoken, data := [] }).toBytes = .ok b
  cancelled : s'.in_cancelled = true
  deleted : s'.ws = false

/-- The loop over the writers raises at the first of them. -/
theorem terminateWriters_cons (token connectiontoken : Bytes) (rest : List Bytes) :
    ∃ e, (terminateWriters token (connectiontoken :: rest)).2 = some e := by
  rw [terminateWriters]
  generalize WSNetworkServerTCPWriter.write token connectiontoken [] = w
  rcases w with ⟨sent, _ | e⟩
  · exact ⟨.typeError, rfl⟩
  · exact ⟨e, rfl⟩

theorem terminate_of_keys_nil (h : s.Serves) (hk : s.connections.keys = []) :
    s.terminate = ({ s with in_cancelled := true, ws := false }, [.terminated (.ok ())]) := by
  have hvalues : s.connections.values = [] := by simp [Dict.values, hk]
  rw [terminate, if_neg (not_or.2 h), hk]
  simp only [terminateWriters, putAll, hvalues, List.foldl_nil, List.map_nil, List.nil_append]

theorem terminate_of_keys_cons (h : s.Serves) {connectiontoken : Bytes} {rest : List Bytes}
    (hk : s.connections.keys = connectiontoken :: rest) : .terminated (.ok ()) ∉ s.terminate.2 := by
  obtain ⟨e, he⟩ := terminateWriters_cons s.token connectiontoken rest
  rcases hw : terminateWriters s.token (connectiontoken :: rest) with ⟨sent, x⟩
  rw [hw] at he
  dsimp only at he
  rw [terminate, if_neg (not_or.2 h), hk, hw, he]
  simp

theorem outputs_of_shutsDown (he : s.ShutsDown e) (hs : s.step e = some (s', o)) :
    o = s.terminate.2 ∧ s'.in_cancelled = s.terminate.1.in_cancelled ∧ s'.ws = s.terminate.1.ws := by
  rcases he with rfl | ⟨hpc, data, cmd, rfl, hread, htype⟩
  · obtain ⟨rfl, rfl⟩ := Prod.ext_iff.1 (Option.some.inj hs)
    exact ⟨rfl, rfl, rfl⟩
  · have hfinish : s.handle_in data = s.finish := by
      rw [handle_in, hread]
      cases cmd with
      | OK c => rfl
      | ERR c => rfl
      | _ => simp [CMD.type] at htype
    simp only [step, hpc, hfinish] at hs
    split_ifs at hs
    obtain ⟨rfl, rfl⟩ := Prod.ext_iff.1 (Option.some.inj hs)
    exact ⟨rfl, rfl, rfl⟩

/-- What `close` sends: the empty message of every connection whose token has 16 bytes. -/
theorem closeWriters_spec {token : Bytes} (ht : token.length = 16) {keys : List Bytes}
    (hk : ∀ ct ∈ keys, ct.length = 16) :
    (closeWriters token keys).2 = none ∧
      ∀ connectiontoken ∈ keys, ∃ b ∈ (closeWriters token keys).1,
        (CMD.SDSRV { token, connectiontoken, data := [] }).toBytes = .ok b := by
  induction keys with
  | nil => exact ⟨rfl, fun ct hct => by cases hct⟩
  | cons ct keys ih =>
    obtain ⟨hnone, hsent⟩ := ih fun ct' hct' => hk ct' (List.mem_cons_of_mem _ hct')
    have hcarries : Carries (fun chunk => .SDSRV { token, connectiontoken := ct, data := chunk })
        (40 + addressSize "") :=
      carries_SDSRV ht (hk ct List.mem_cons_self) (by decide)
    obtain ⟨b, hb⟩ := hcarries.written [] (by decide)
    have hwrite : WSNetworkServerTCPWriter.write token ct [] = ([b], none) := by
      have hpieces : pieces [] = [[]] := by simp [pieces, maxMessage]
      rw [WSNetworkServerTCPWriter.write, hpieces, frames]
      simp only [hb, frames]
    rw [closeWriters, hwrite]
    refine ⟨hnone, fun ct' hct' => ?_⟩
    rcases List.mem_cons.1 hct' with rfl | hct'
    · exact ⟨b, List.mem_cons_self, hb⟩
    · obtain ⟨b', hb', h⟩ := hsent ct' hct'
      exact ⟨b', List.mem_cons_of_mem _ hb', h⟩

theorem getElem?_putErrs (ks : List Nat) (err : String) (hs : List Handler) (k : Nat) :
    (ks.foldl (fun hs k => hs.modify k (·.putErr err)) hs)[k]? = hs[k]?.map fun h =>
      { h with in_queue := h.in_queue ++ List.replicate (ks.count k) ⟨none, some err⟩ } := by
  induction ks generalizing hs with
  | nil => simp
  | cons k' ks ih =>
    rw [List.foldl_cons, ih, List.getElem?_modify, List.count_cons]
    by_cases hk : k' = k
    · subst hk
      cases hs[k']? <;> simp [Handler.putErr, List.replicate_succ]
    · cases hs[k]? <;> simp [hk]

/-- `close` does what `terminate` should: it puts an error into every queue and sends every empty message. -/
theorem close_spec (ht : s.token.length = 16) (hk : ∀ ct ∈ s.connections.keys, ct.length = 16)
    (hh : ∀ k ∈ s.connections.values, k < s.handlers.length) :
    (∀ k ∈ s.connections.values, ∃ h h' items, s.handlers[k]? = some h ∧ s.close.1.handlers[k]? = some h' ∧
        h'.in_queue = h.in_queue ++ items ∧ ∃ i ∈ items, i.err ≠ none) ∧
      ∀ connectiontoken ∈ s.connections.keys, ∃ b, .frame b ∈ s.close.2 ∧
        (CMD.SDSRV { token := s.token, connectiontoken, data := [] }).toBytes = .ok b := by
  obtain ⟨hnone, hsent⟩ := closeWriters_spec ht hk
  rcases hw : closeWriters s.token s.connections.keys with ⟨sent, x⟩
  rw [hw] at hnone hsent
  dsimp only at hnone
  rw [close, hw, hnone]
  refine ⟨fun k hmem => ?_, fun ct hmem => ?_⟩
  · obtain ⟨h, hget⟩ : ∃ h, s.handlers[k]? = some h := ⟨_, List.getElem?_eq_getElem (hh k hmem)⟩
    have hafter : (s.putAll "Server is terminating!").handlers[k]? = some { h with
        in_queue := h.in_queue ++
          List.replicate (s.connections.values.count k) ⟨none, some "Server is terminating!"⟩ } := by
      rw [putAll, getElem?_putErrs, hget]
      rfl
    exact ⟨h, _, _, hget, hafter, rfl, _, List.mem_replicate.2 ⟨(List.count_pos_iff.2 hmem).ne', rfl⟩, by simp⟩
  · obtain ⟨b, hb, h⟩ := hsent ct hmem
    exact ⟨b, List.mem_map_of_mem (List.mem_append_left _ hb), h⟩

/-- Losing the server, or terminating it, wakes every handler and tells every peer exactly when there is none. -/
theorem wakes_iff (h : s.Serves) (he : s.ShutsDown e) (hs : s.step e = some (s', o)) :
    WakesAll s s' o ↔ s.connections.keys = [] := by
  obtain ⟨rfl, hcancelled, hws⟩ := outputs_of_shutsDown he hs
  constructor
  · intro hw
    cases hk : s.connections.keys with
    | nil => rfl
    | cons connectiontoken rest => exact absurd hw.returns (terminate_of_keys_cons h hk)
  · intro hk
    have hvalues : s.connections.values = [] := by simp [Dict.values, hk]
    rw [terminate_of_keys_nil h hk] at hcancelled hws ⊢
    refine ⟨List.mem_cons_self, fun k hmem => ?_, fun ct hmem => ?_, hcancelled, hws⟩
    · rw [hvalues] at hmem
      cases hmem
    · rw [hk] at hmem
      cases hmem

/-- The messages of a run in which a client connects, and then the server's `OK`. -/
def continueMsg : Bytes := [0, 0, 0, 26, 0, 4] ++ List.replicate 16 5 ++ [0, 0, 0, 0]

def clientMsg : Bytes := [0, 0, 0, 45, 0, 200] ++ List.replicate 16 5 ++ List.replicate 16 48 ++ [4, 1, 2, 3, 4, 0, 7]

def okMsg : Bytes := [0, 0, 0, 26, 0, 0] ++ List.replicate 16 5 ++ [0, 0, 0, 0]

/-- A server that is started gets its `OK`, before anybody has connected and with a client. -/
theorem wakes_iff_started :
    (∃ s₁ s₂ o₁ o₂, Run step { token := List.replicate 16 5, ip := "", port := 0 } [.message continueMsg] s₁ o₁ ∧
      s₁.step (.message okMsg) = some (s₂, o₂) ∧ s₁.connections.keys = [] ∧
        (WakesAll s₁ s₂ o₂ ↔ s₁.connections.keys = [])) ∧
    ∃ s₁ s₂ o₁ o₂, Run step { token := List.replicate 16 5, ip := "", port := 0 }
        [.message continueMsg, .message clientMsg, .opened] s₁ o₁ ∧
      s₁.step (.message okMsg) = some (s₂, o₂) ∧ s₁.connections.keys = [List.replicate 16 48] ∧
        (WakesAll s₁ s₂ o₂ ↔ s₁.connections.keys = []) := by
  constructor
  · exact ⟨_, _, _, _, .of_exec rfl, rfl, rfl, wakes_iff ⟨by decide, by decide⟩
      (.inr ⟨rfl, okMsg, .OK { token := List.replicate 16 5 }, rfl, rfl, .inl rfl⟩) rfl⟩
  · exact ⟨_, _, _, _, .of_exec rfl, rfl, rfl, wakes_iff ⟨by decide, by decide⟩
      (.inr ⟨rfl, okMsg, .OK { token := List.replicate 16 5 }, rfl, rfl, .inl rfl⟩) rfl⟩

/-- `terminate` raises, the handler is not woken and the websocket stays. -/
theorem not_wakes : ∃ s₁ s₂ o₁ o₂, Run step { token := List.replicate 16 5, ip := "", port := 0 }
      [.message continueMsg, .message clientMsg, .opened] s₁ o₁ ∧ s₁.Serves ∧ s₁.ShutsDown (.message okMsg) ∧
    s₁.step (.message okMsg) = some (s₂, o₂) ∧ s₂.handlers.map (·.in_queue) = [[]] ∧ s₂.ws = true ∧
      ¬ WakesAll s₁ s₂ o₂ := by
  refine ⟨_, _, _, _, .of_exec rfl, ⟨by decide, by decide⟩,
    .inr ⟨rfl, okMsg, .OK { token := List.replicate 16 5 }, rfl, rfl, .inl rfl⟩,
    rfl, rfl, rfl, fun h => ?_⟩
  cases h.deleted

end WSNetworkTCPServer

end Wsnet.Pyodide
