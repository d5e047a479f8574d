import Wsnet.Agent.Act

/-!
# The tables of the agent

Sessions are never removed, and keep their command and the branch of `socket_connect` they are in, so
that "the session `i` has the token `t` and is in branch `b`" (`Agent.Has`) stays true once it is.
Every key of a table is the token of a session in a branch that fills the table (`Tables`); the tables
`server_queues` and `server_tcp_connections` never lose a key.
-/

namespace Wsnet

/-- The machines a session can be. -/
inductive Branch
  | tcpClient | udpClient | tcpServer | udpServer | nothing
  deriving DecidableEq, Repr

def SessionTask.branch : SessionTask → Branch
  | .tcpClient _ => .tcpClient
  | .udpClient _ => .udpClient
  | .tcpServer _ => .tcpServer
  | .udpServer _ => .udpServer
  | .nothing _ => .nothing

/-- The token the machine works with. -/
def SessionTask.token? : SessionTask → Option Bytes
  | .tcpClient s => some s.token
  | .udpClient s => some s.token
  | .tcpServer s => some s.token
  | .udpServer s => some s.token
  | .nothing _ => none

def SocketKind.branch : SocketKind → Branch
  | .tcpClient => .tcpClient
  | .udpClient => .udpClient
  | .tcpServer | .tcpServerOther => .tcpServer
  | .udpServer | .llmnr | .nbtns | .mdns => .udpServer
  | .udpServerOther => .nothing

/-- The branches that have an effect on a table. -/
def Effect.branches : Effect → List Branch
  | .setProcessQueue | .delProcessQueue => [.tcpClient]
  | .setServerQueue _ => [.udpClient, .udpServer]
  | .resetTcpConnections => [.tcpServer]
  | .setServer => [.tcpServer, .udpServer]
  | .sent _ | .opened | .wrote _ | .read _ => [.tcpClient, .udpClient, .tcpServer, .udpServer, .nothing]

theorem TcpClient.branches_of_step {s s' : TcpClient} {e : Event} {o : List Effect} (h : s.step e = some (s', o)) :
    ∀ x ∈ o, .tcpClient ∈ x.branches := by
  cases e with
  | put c => cases h; simp
  | main e => cases mainStep_of_step h <;> simp [fail, finish, Effect.branches]
  | dataIn e => cases dataInStep_of_step h <;> simp [finishDataIn, Effect.branches]

theorem UdpClient.branches_of_step {s s' : UdpClient} {e : Event} {o : List Effect} (h : s.step e = some (s', o)) :
    ∀ x ∈ o, .udpClient ∈ x.branches := by
  revert h
  fun_cases step s e <;> rintro ⟨⟩ <;> simp [Effect.branches]

theorem TcpServer.branches_of_step {s s' : TcpServer} {e : Event} {o : List Effect} (h : s.step e = some (s', o)) :
    ∀ x ∈ o, .tcpServer ∈ x.branches := by
  revert h
  fun_cases step s e <;> rintro ⟨⟩ <;> simp [Effect.branches]

theorem UdpServer.branches_of_step {s s' : UdpServer} {e : Event} {o : List Effect} (h : s.step e = some (s', o)) :
    ∀ x ∈ o, .udpServer ∈ x.branches := by
  revert h
  fun_cases step s e <;> rintro ⟨⟩ <;> simp [or_imp, forall_and, Effect.branches]

namespace Session
variable {s s' : Session} {e : Event} {o : List Effect}

theorem branch_of_step (h : s.step e = some (s', o)) : s'.task.branch = s.task.branch := by
  have ht := (step_eq_some h).2
  generalize s.task = k at ht; generalize s'.task = k' at ht; generalize s.taskEvent e = e' at ht
  cases ht <;> rfl

theorem token?_of_step (h : s.step e = some (s', o)) : s'.task.token? = s.task.token? := by
  have ht := (step_eq_some h).2
  generalize s.task = k at ht; generalize s'.task = k' at ht; generalize s.taskEvent e = e' at ht
  cases ht with
  | tcpClient h => exact congrArg some (TcpClient.token_of_step h)
  | udpClient h => exact congrArg some (UdpClient.token_of_step h)
  | tcpServer h => exact congrArg some (TcpServer.token_of_step h)
  | udpServer h => exact congrArg some (UdpServer.token_of_step h)
  | nothing => rfl

/-- The machine of a session is the one its command asks for. -/
def Fits (s : Session) : Prop := s.task.branch = s.cmd.kind.branch ∧ ∀ t, s.task.token? = some t → t = s.cmd.token

theorem Fits.step (hp : s.Fits) (h : s.step e = some (s', o)) : s'.Fits := by
  unfold Fits
  rw [branch_of_step h, token?_of_step h, (step_eq_some h).1]
  exact hp

theorem fits_create (full : Bool) (c : WSNConnect) : (create full c).Fits := by
  unfold create Fits; cases c.kind <;> simp [SessionTask.branch, SessionTask.token?, SocketKind.branch]

theorem branches_of_step (h : s.step e = some (s', o)) : ∀ x ∈ o, s.task.branch ∈ x.branches := by
  have ht := (step_eq_some h).2
  generalize s.task = k at ht; generalize s'.task = k' at ht; generalize s.taskEvent e = e' at ht
  cases ht with
  | tcpClient h => exact TcpClient.branches_of_step h
  | udpClient h => exact UdpClient.branches_of_step h
  | tcpServer h => exact TcpServer.branches_of_step h
  | udpServer h => exact UdpServer.branches_of_step h
  | nothing => simp

end Session

namespace Agent

@[simp] theorem cmd_cancelServer (s : Session) : (cancelServer s).cmd = s.cmd := by
  unfold cancelServer; split <;> rfl

@[simp] theorem branch_cancelServer (s : Session) : (cancelServer s).task.branch = s.task.branch := by
  unfold cancelServer; split <;> simp_all [SessionTask.branch]

@[simp] theorem token?_cancelServer (s : Session) : (cancelServer s).task.token? = s.task.token? := by
  unfold cancelServer; split <;> simp_all [SessionTask.token?]

/-! ### What the effects do to the tables -/

section Effects
variable {token t : Bytes} {i j : Nat} {a : Agent} {s : Session} {os : List Effect}

/-- What no effect changes, the effects of a session do not change. -/
theorem foldl_applyEffect {α : Type} (f : Agent → α) (hf : ∀ a e, f (applyEffect token i a e) = f a) :
    f (os.foldl (applyEffect token i) a) = f a := by
  induction os generalizing a with
  | nil => rfl
  | cons e os ih => rw [List.foldl_cons, ih, hf]

@[simp] theorem sessions_putSession : (a.putSession i s os).1.sessions = a.sessions.set i s :=
  foldl_applyEffect (·.sessions) fun _ e => by cases e <;> rfl

@[simp] theorem conns_putSession : (a.putSession i s os).1.conns = a.conns :=
  foldl_applyEffect (·.conns) fun _ e => by cases e <;> rfl

@[simp] theorem files_putSession : (a.putSession i s os).1.files = a.files :=
  foldl_applyEffect (·.files) fun _ e => by cases e <;> rfl

@[simp] theorem fileQueues_putSession : (a.putSession i s os).1.fileQueues = a.fileQueues :=
  foldl_applyEffect (·.fileQueues) fun _ e => by cases e <;> rfl

@[simp] theorem incoming_putSession : (a.putSession i s os).1.incoming = a.incoming :=
  foldl_applyEffect (·.incoming) fun _ e => by cases e <;> rfl

@[simp] theorem connId_putSession : (a.putSession i s os).1.connId = a.connId :=
  foldl_applyEffect (·.connId) fun _ e => by cases e <;> rfl

@[simp] theorem resolving_putSession : (a.putSession i s os).1.resolving = a.resolving :=
  foldl_applyEffect (·.resolving) fun _ e => by cases e <;> rfl

@[simp] theorem full_putSession : (a.putSession i s os).1.full = a.full :=
  foldl_applyEffect (·.full) fun _ e => by cases e <;> rfl

/-- The entry of a session in `__process_queues`. -/
def processEntry (i : Nat) (x : Option Nat) : Effect → Option Nat
  | .setProcessQueue => some i
  | .delProcessQueue => none
  | _ => x

theorem processEntry_eq_some {x : Option Nat} (h : os.foldl (processEntry i) x = some j) :
    x = some j ∨ j = i ∧ .setProcessQueue ∈ os := by
  induction os generalizing x with
  | nil => exact .inl h
  | cons e os ih =>
    rcases ih h with h | ⟨h, hm⟩
    · cases e <;> simp_all [processEntry]
    · exact .inr ⟨h, List.mem_cons_of_mem _ hm⟩

theorem processQueues_putSession : (a.putSession i s os).1.processQueues.get? t =
    if t = s.cmd.token then os.foldl (processEntry i) (a.processQueues.get? t) else a.processQueues.get? t := by
  suffices h : ∀ a : Agent, (os.foldl (applyEffect s.cmd.token i) a).processQueues.get? t =
      if t = s.cmd.token then os.foldl (processEntry i) (a.processQueues.get? t) else a.processQueues.get? t from
    h { a with sessions := a.sessions.set i s }
  induction os with
  | nil => simp
  | cons e os ih =>
    intro a
    rw [List.foldl_cons, ih, List.foldl_cons]
    by_cases ht : t = s.cmd.token <;> cases e <;> simp [applyEffect, processEntry, Dict.get?_set, Dict.get?_del, ht]

theorem servers_putSession : (a.putSession i s os).1.servers.get? t =
    if t = s.cmd.token ∧ .setServer ∈ os then some i else a.servers.get? t := by
  suffices h : ∀ a : Agent, (os.foldl (applyEffect s.cmd.token i) a).servers.get? t =
      if t = s.cmd.token ∧ .setServer ∈ os then some i else a.servers.get? t from
    h { a with sessions := a.sessions.set i s }
  induction os with
  | nil => simp
  | cons e os ih =>
    intro a
    rw [List.foldl_cons, ih]
    by_cases ht : t = s.cmd.token <;> cases e <;> simp [applyEffect, Dict.get?_set, ht]

theorem serverQueues_putSession : (a.putSession i s os).1.serverQueues.contains t ↔
    a.serverQueues.contains t ∨ t = s.cmd.token ∧ ∃ ct, .setServerQueue ct ∈ os := by
  suffices h : ∀ a : Agent, (os.foldl (applyEffect s.cmd.token i) a).serverQueues.contains t ↔
      a.serverQueues.contains t ∨ t = s.cmd.token ∧ ∃ ct, .setServerQueue ct ∈ os from
    h { a with sessions := a.sessions.set i s }
  induction os with
  | nil => simp
  | cons e os ih =>
    intro a
    rw [List.foldl_cons, ih]
    by_cases ht : t = s.cmd.token <;> cases e <;> simp [applyEffect, Dict.contains, Dict.get?_set, ht]

theorem serverTcpConnections_putSession : (a.putSession i s os).1.serverTcpConnections.get? t =
    if t = s.cmd.token ∧ .resetTcpConnections ∈ os then some Dict.empty else a.serverTcpConnections.get? t := by
  suffices h : ∀ a : Agent, (os.foldl (applyEffect s.cmd.token i) a).serverTcpConnections.get? t =
      if t = s.cmd.token ∧ .resetTcpConnections ∈ os then some Dict.empty else a.serverTcpConnections.get? t from
    h { a with sessions := a.sessions.set i s }
  induction os with
  | nil => simp
  | cons e os ih =>
    intro a
    rw [List.foldl_cons, ih]
    by_cases ht : t = s.cmd.token <;> cases e <;> simp [applyEffect, Dict.get?_set, ht]

theorem contains_serverTcpConnections_putSession : (a.putSession i s os).1.serverTcpConnections.contains t ↔
    a.serverTcpConnections.contains t ∨ t = s.cmd.token ∧ .resetTcpConnections ∈ os := by
  rw [Dict.contains, serverTcpConnections_putSession]
  split <;> simp_all [Dict.contains]

end Effects

/-- The effects of a connection change nothing but the connections and the keys inside
`server_tcp_connections`. -/
theorem putConn_frame (a : Agent) (j : Nat) (c : TCPServerConnection) (os : List TCPServerConnection.Effect) :
    ∃ table, (a.putConn j c os).1 = { a with conns := a.conns.set j c, serverTcpConnections := table } ∧
      ∀ t, table.contains t = a.serverTcpConnections.contains t := by
  suffices h : ∀ a : Agent, ∃ table, os.foldl (applyConnEffect c j) a = { a with serverTcpConnections := table } ∧
      ∀ t, table.contains t = a.serverTcpConnections.contains t from h { a with conns := a.conns.set j c }
  induction os with
  | nil => exact fun a => ⟨_, rfl, fun _ => rfl⟩
  | cons e os ih =>
    intro a
    obtain ⟨table, h, hc⟩ := ih (applyConnEffect c j a e)
    have he : ∃ table, applyConnEffect c j a e = { a with serverTcpConnections := table } ∧
        ∀ t, table.contains t = a.serverTcpConnections.contains t := by
      cases e with
      | sent c | read data => exact ⟨_, rfl, fun _ => rfl⟩
      | register | unregister =>
        simp only [applyConnEffect]
        split
        · refine ⟨_, rfl, fun t => ?_⟩
          by_cases ht : t = c.token <;> simp_all [Dict.contains, Dict.get?_set]
        · exact ⟨_, rfl, fun _ => rfl⟩
    obtain ⟨table', h', hc'⟩ := he
    refine ⟨table, by rw [List.foldl_cons, h, h'], fun t => ?_⟩
    rw [hc, h', hc']

/-- What an act is to sessions and files: those of the connections change no key of a table. -/
inductive Change (m : Option CMD) (a : Agent) : Agent → Prop
  | put {c : CMD} {i : Nat} {cmd : WSNConnect} {t : TcpClient} (hm : m = some c)
    (hq : a.processQueues.get? c.token = some i) (hs : a.sessions[i]? = some ⟨cmd, .tcpClient t⟩) :
    Change m a { a with sessions := a.sessions.set i ⟨cmd, .tcpClient { t with inQ := t.inQ ++ [c] }⟩ }
  | create {c : WSNConnect} (hm : m = some (.CONNECT c)) :
    Change m a { a with sessions := a.sessions ++ [Session.create a.full c] }
  | cancel {token : Bytes} {i : Nat} {s : Session} (hq : a.servers.get? token = some i) (hs : a.sessions[i]? = some s) :
    Change m a { a with sessions := a.sessions.set i (cancelServer s), servers := a.servers.del token }
  | openFile {c : WSNFileOpen} (hm : m = some (.FILEOPEN c)) :
    Change m a { a with files := a.files ++ [true], fileQueues := a.fileQueues.set c.token a.files.length }
  | closeFile {c : WSNOK} {k : Nat} (hm : m = some (.OK c)) (hq : a.fileQueues.get? c.token = some k) :
    Change m a { a with files := a.files.set k false }
  | delFile {c : WSNOK} (hm : m = some (.OK c)) : Change m a { a with fileQueues := a.fileQueues.del c.token }
  | conns (conns : List TCPServerConnection) (connId : Nat) (incoming : Incoming) (resolving : List (Bytes × TaskState))
    {table : Dict Bytes (Dict Bytes Nat)} (ht : ∀ t, table.contains t = a.serverTcpConnections.contains t) :
    Change m a { a with conns, connId, incoming, resolving, serverTcpConnections := table }

theorem change_of_act {x : Event} {a a' : Agent} {o : List Output} (h : Act x a a' o) : Change x.cmd? a a' := by
  cases h with
  | put hm hq hs => exact .put hm hq hs
  | create hm => exact .create hm
  | cancel hq hs => exact .cancel hq hs
  | openFile hm => exact .openFile hm
  | closeFile hm hq => exact .closeFile hm hq
  | delFile hm => exact .delFile hm
  | accept | drain | other => exact .conns _ _ _ _ fun _ => rfl
  | @start j _ c o hc hx h =>
    obtain ⟨table, h, ht⟩ := putConn_frame { a with connId := a.connId + 1 } j c o
    rw [h]; exact .conns _ _ _ _ ht
  | @conn j _ c o hc e hx he h =>
    obtain ⟨table, h, ht⟩ := putConn_frame a j c o
    rw [h]; exact .conns _ _ _ _ ht
  | @beginStop j c hc hj ha incoming hd hi =>
    obtain ⟨table, h, ht⟩ := putConn_frame a j c.beginStop.1 c.beginStop.2
    rw [h]; exact .conns _ _ _ _ ht
  | @endStop j c hc ha sent hx =>
    obtain ⟨table, h, ht⟩ := putConn_frame { a with incoming := .idle } j (c.endStop sent).1 (c.endStop sent).2
    rw [h]; exact .conns _ _ _ _ ht

/-! ### Sessions stay what they are -/

/-- The session `i` has the token `t` and is in branch `b`. -/
def Has (ss : List Session) (i : Nat) (t : Bytes) (b : Branch) : Prop :=
  ∃ s, ss[i]? = some s ∧ s.cmd.token = t ∧ s.task.branch = b

variable {m : Option CMD} {a a' : Agent} {e : Event} {o os : List Output} {i j : Nat} {t : Bytes} {b : Branch}
  {s s' : Session} {ss : List Session}

theorem has_set (hs : ss[i]? = some s) (hc : s'.cmd = s.cmd) (hb : s'.task.branch = s.task.branch) :
    Has (ss.set i s') j t b ↔ Has ss j t b := by
  by_cases hj : i = j
  · subst hj
    simp [Has, List.getElem?_set_self', hs, hc, hb]
  · simp [Has, List.getElem?_set_ne hj]

theorem has_append (s : Session) (h : Has ss i t b) : Has (ss ++ [s]) i t b := by
  obtain ⟨s₀, hs, h⟩ := h
  exact ⟨s₀, by rw [List.getElem?_append_left (List.getElem?_eq_some_iff.1 hs).1]; exact hs, h⟩

theorem has_of_append (h : Has (ss ++ [s]) i t b) :
    Has ss i t b ∨ i = ss.length ∧ s.cmd.token = t ∧ s.task.branch = b := by
  obtain ⟨s₀, hs, h⟩ := h
  rw [List.getElem?_append] at hs
  split at hs
  · exact .inl ⟨s₀, hs, h⟩
  · obtain ⟨hi, hs⟩ := List.getElem?_eq_some_iff.1 hs
    simp only [List.length_singleton] at hi
    refine .inr ⟨by omega, ?_⟩
    rw [List.getElem_singleton] at hs
    exact hs ▸ h

/-- What a step makes of the sessions: each stays what it is, and one is added if the step decodes a CONNECT. -/
inductive Grows (m : Option CMD) (ss : List Session) : List Session → Prop
  | set {i : Nat} {s s' : Session} (hs : ss[i]? = some s) (hc : s'.cmd = s.cmd)
    (hb : s'.task.branch = s.task.branch) (ht : s'.task.token? = s.task.token?) : Grows m ss (ss.set i s')
  | create {c : WSNConnect} (hm : m = some (.CONNECT c)) (full : Bool) : Grows m ss (ss ++ [Session.create full c])
  | same : Grows m ss ss

theorem Grows.has {ss' : List Session} (h : Grows m ss ss') (hh : Has ss i t b) : Has ss' i t b := by
  cases h with
  | set hs hc hb ht => exact (has_set hs hc hb).2 hh
  | create => exact has_append _ hh
  | same => exact hh

theorem Grows.has_of {ss' : List Session} (h : Grows m ss ss') (hh : Has ss' i t b) :
    Has ss i t b ∨ ∃ c, m = some (.CONNECT c) ∧ c.token = t := by
  cases h with
  | set hs hc hb ht => exact .inl ((has_set hs hc hb).1 hh)
  | create hm =>
    rcases has_of_append hh with h | ⟨-, h, -⟩
    · exact .inl h
    · exact .inr ⟨_, hm, h⟩
  | same => exact .inl hh

theorem grows_of_act (h : Act e a a' o) : Grows e.cmd? a.sessions a'.sessions := by
  cases change_of_act h with
  | put hm hq hs => exact .set hs rfl rfl rfl
  | create hm => exact .create hm a.full
  | cancel hq hs => exact .set hs (cmd_cancelServer _) (branch_cancelServer _) (token?_cancelServer _)
  | _ => exact .same

theorem grows_putSession (hs : a.sessions[i]? = some s) {e : Session.Event} {o : List Effect}
    (h : s.step e = some (s', o)) : Grows m a.sessions (a.putSession i s' o).1.sessions := by
  rw [sessions_putSession]
  exact .set hs (Session.step_eq_some h).1 (Session.branch_of_step h) (Session.token?_of_step h)

/-! ### The keys of the tables -/

/-- Every entry belongs to a session that makes such entries. -/
structure Tables (a : Agent) : Prop where
  process : ∀ {t : Bytes} {i : Nat}, a.processQueues.get? t = some i → Has a.sessions i t .tcpClient
  server : ∀ {t : Bytes} {i : Nat}, a.servers.get? t = some i →
    Has a.sessions i t .tcpServer ∨ Has a.sessions i t .udpServer
  serverQueue : ∀ {t : Bytes}, a.serverQueues.contains t →
    ∃ i, Has a.sessions i t .udpClient ∨ Has a.sessions i t .udpServer
  tcpConnection : ∀ {t : Bytes}, a.serverTcpConnections.contains t → ∃ i, Has a.sessions i t .tcpServer

/-- Tables with no new entries, and sessions that stay what they are. -/
theorem Tables.mono (hp : Tables a) (hg : Grows m a.sessions a'.sessions)
    (h1 : ∀ {t i}, a'.processQueues.get? t = some i → a.processQueues.get? t = some i)
    (h2 : ∀ {t i}, a'.servers.get? t = some i → a.servers.get? t = some i)
    (h3 : ∀ {t}, a'.serverQueues.contains t → a.serverQueues.contains t)
    (h4 : ∀ {t}, a'.serverTcpConnections.contains t → a.serverTcpConnections.contains t) : Tables a' where
  process h := hg.has (hp.process (h1 h))
  server h := (hp.server (h2 h)).imp hg.has hg.has
  serverQueue h := (hp.serverQueue (h3 h)).imp fun _ h => h.imp hg.has hg.has
  tcpConnection h := (hp.tcpConnection (h4 h)).imp fun _ h => hg.has h

theorem Tables.act (hp : Tables a) (h : Act e a a' o) : Tables a' := by
  have hg := grows_of_act h
  cases change_of_act h with
  | cancel => exact hp.mono hg id Dict.get?_of_get?_del id id
  | conns _ _ _ _ ht => exact hp.mono hg id id id fun h => by rwa [ht] at h
  | _ => exact hp.mono hg id id id id

theorem Tables.session (hp : Tables a) (hs : a.sessions[i]? = some s) {e : Session.Event} {o : List Effect}
    (h : s.step e = some (s', o)) : Tables (a.putSession i s' o).1 := by
  have hg : Grows none a.sessions (a.putSession i s' o).1.sessions := grows_putSession hs h
  have hb := Session.branches_of_step h
  have hhas : Has (a.putSession i s' o).1.sessions i s'.cmd.token s.task.branch :=
    hg.has ⟨s, hs, by rw [(Session.step_eq_some h).1], rfl⟩
  refine ⟨fun {t j} ht => ?_, fun {t j} ht => ?_, fun {t} ht => ?_, fun {t} ht => ?_⟩
  · rw [processQueues_putSession] at ht
    split at ht
    · rcases processEntry_eq_some ht with ht | ⟨rfl, he⟩
      · exact hg.has (hp.process ht)
      · have hbr := hb _ he
        simp only [Effect.branches, List.mem_cons, List.not_mem_nil, or_false] at hbr
        rw [hbr] at hhas
        subst t
        exact hhas
    · exact hg.has (hp.process ht)
  · rw [servers_putSession] at ht
    split at ht
    · obtain ⟨rfl, he⟩ := ‹_ ∧ _›
      cases ht
      have hbr := hb _ he
      simp only [Effect.branches, List.mem_cons, List.not_mem_nil, or_false] at hbr
      exact hbr.imp (fun h => by rwa [h] at hhas) fun h => by rwa [h] at hhas
    · exact (hp.server ht).imp hg.has hg.has
  · rcases serverQueues_putSession.1 ht with ht | ⟨rfl, ct, he⟩
    · exact (hp.serverQueue ht).imp fun _ h => h.imp hg.has hg.has
    · have hbr := hb _ he
      simp only [Effect.branches, List.mem_cons, List.not_mem_nil, or_false] at hbr
      exact ⟨i, hbr.imp (fun h => by rwa [h] at hhas) fun h => by rwa [h] at hhas⟩
  · rcases contains_serverTcpConnections_putSession.1 ht with ht | ⟨rfl, he⟩
    · exact (hp.tcpConnection ht).imp fun _ h => hg.has h
    · have hbr := hb _ he
      simp only [Effect.branches, List.mem_cons, List.not_mem_nil, or_false] at hbr
      exact ⟨i, hbr ▸ hhas⟩

/-- What every step of a session and every act keeps, every step keeps. -/
theorem preserved {P : Agent → Prop}
    (hsession : ∀ {a i s s'} {e : Session.Event} {o}, a.sessions[i]? = some s → e.isPut = false →
      s.step e = some (s', o) → P a → P (a.putSession i s' o).1)
    (hact : ∀ {a a' o}, Act e a a' o → P a → P a') (h : a.step e = some (a', o)) (hp : P a) : P a' := by
  rcases step_cases h with ⟨i, e', s, s', o', -, hput, hs, hstep, heq⟩ | ⟨-, h⟩
  · rw [(Prod.mk.inj heq).1]
    exact hsession hs hput hstep hp
  · exact h.state_preserve (fun ha hp => hact ha hp) hp

/-- What the acts do to the sessions one by one. -/
theorem forall_sessions_act {Q : Session → Prop}
    (hput : ∀ {cmd t} (c : CMD), Q ⟨cmd, .tcpClient t⟩ → Q ⟨cmd, .tcpClient { t with inQ := t.inQ ++ [c] }⟩)
    (hcancel : ∀ {s}, Q s → Q (cancelServer s)) (hcreate : ∀ full c, Q (Session.create full c))
    (h : Act e a a' o) (hp : ∀ s ∈ a.sessions, Q s) : ∀ s ∈ a'.sessions, Q s := by
  intro s₀ hmem
  cases change_of_act h with
  | put hm hq hs =>
    rcases List.mem_or_eq_of_mem_set hmem with hmem | rfl
    · exact hp s₀ hmem
    · exact hput _ (hp _ (List.mem_of_getElem? hs))
  | create hm =>
    rcases List.mem_append.1 hmem with hmem | hmem
    · exact hp s₀ hmem
    · rw [List.mem_singleton.1 hmem]; exact hcreate a.full _
  | cancel hq hs =>
    rcases List.mem_or_eq_of_mem_set hmem with hmem | rfl
    · exact hp s₀ hmem
    · exact hcancel (hp _ (List.mem_of_getElem? hs))
  | _ => exact hp s₀ hmem

theorem forall_sessions_putSession {Q : Session → Prop} {o : List Effect} (hs : Q s') (hp : ∀ s ∈ a.sessions, Q s) :
    ∀ s ∈ (a.putSession i s' o).1.sessions, Q s := by
  intro s₀ hmem
  rw [sessions_putSession] at hmem
  rcases List.mem_or_eq_of_mem_set hmem with hmem | rfl
  · exact hp s₀ hmem
  · exact hs

/-- An agent that has just been started. -/
def init (full : Bool) (info : WSNGetInfoReply) : Agent := { full, info }

theorem Tables.step (hp : Tables a) (h : a.step e = some (a', o)) : Tables a' :=
  preserved (fun hs _ h hp => hp.session hs h) (fun h hp => hp.act h) h hp

theorem Tables.init (full : Bool) (info : WSNGetInfoReply) : Tables (init full info) :=
  ⟨nofun, nofun, nofun, nofun⟩

end Agent

end Wsnet
