import Wsnet.Agent.EndsOnOk
import Wsnet.Agent.Connections

/-!
# A websocket is dropped

`Client` is the agent of one websocket as `handle_client` uses it, with what a running agent has no use
for: the table `__running_tasks` of the `socket_connect` tasks, and `terminate`, which cancels those and
the tasks in `__servers`. The exception of a cancellation is raised later (`mainCancel`, and the `cancel`
events of the other tasks); until then the task does nothing. Nothing else is looked at by `terminate`: a
socket is closed by it only where a task that closes the socket in its `finally` is cancelled, and has
started when the exception arrives (`SessionTask.Closing`).
-/

namespace Wsnet

namespace Session

/-- An event of `socket_connect` itself, and not of a task that it starts. -/
def Event.isMain : Event → Bool
  | .opening _ | .tcpClient (.main _) | .nothing => true
  | .tcpClient _ => false
  | .udpClient (.writerStart) | .udpClient (.writerGot _ _) => false
  | .udpClient _ => true
  | .tcpServer .serveStart | .tcpServer .serveCancel => false
  | .tcpServer _ => true
  | .udpServer (.opened _) | .udpServer (.openFailed _) | .udpServer .sent | .udpServer (.sendFailed _) => true
  | .udpServer _ => false

end Session

namespace SessionTask

/-- `CancelledError` is raised where `socket_connect` waits. No `except` of it is for this exception, and
its `finally` is for `out_task` alone. -/
def cancelMain : SessionTask → Option SessionTask
  -- `__socket_data_in_handle` was scheduled before the exception was, and starts before it is raised
  | .tcpClient s => if s.dataIn = .created then none else some (.tcpClient s.finish.1)
  | .udpClient s => some (.udpClient { s with main := .done })
  | .tcpServer s => some (.tcpServer { s with main := .done })
  | .udpServer s => some (.udpServer { s with main := .done })
  | .nothing _ => some (.nothing true)

/-- A task other than `socket_connect` was cancelled and is not over. -/
def isCancelling : SessionTask → Bool
  | .tcpClient s => s.cancelled
  | .udpClient _ => false
  | .tcpServer s => s.cancelled ∧ (s.serve = .created ∨ s.serve = .serving)
  | .udpServer s => s.runCancelled
  | .nothing _ => false

/-- The socket may still be opened. -/
def mayOpen : SessionTask → Bool
  | .tcpClient s => s.main = .opening
  | .udpClient s => s.main = .opening
  | .tcpServer s => s.main = .created ∧ s.normal ∨ s.main = .opening
  | .udpServer s => s.main = .opening
  | .nothing _ => false

/-- A task that closes the socket when it is cancelled is or will be cancelled, and will have started by then.
`p` says that `socket_connect` will be cancelled, `q` that the task in `__servers` will be. -/
def Closing (p q : Prop) : SessionTask → Prop
  | .tcpClient s =>
    s.dataIn ≠ .done ∧ (s.cancelled = true ∧ s.dataIn ≠ .created ∨ s.cancelled = false ∧ s.main ≠ .done ∧ p)
  -- neither `socket_connect` nor `handle_udp_writer` closes the socket when it is cancelled
  | .udpClient _ => False
  | .tcpServer s => s.main = .done ∧ s.serve = .serving ∧ (s.cancelled = true ∨ q)
  | .udpServer s => (s.run = .waiting ∨ s.run = .sending) ∧ s.running = true ∧ (s.runCancelled = true ∨ q)
  | .nothing _ => False

/-- Neither is an open socket left alone nor will one be opened. -/
structure Owned (p q : Prop) (k : SessionTask) : Prop where
  mayOpen : k.mayOpen = true → p
  closing : k.isOpen = true → k.Closing p q

end SessionTask

/-- Nothing that the agent has opened is open. -/
structure Agent.Released (a : Agent) : Prop where
  sessions : ∀ s ∈ a.sessions, s.task.isOpen = false
  conns : ∀ c ∈ a.conns, c.closed = true
  files : ∀ f ∈ a.files, f = false

/-- The files and the accepted connections are closed, and every session is `Owned`: `p` and `q` say for which
sessions the two tasks will be cancelled. -/
structure Agent.Owned (p q : Nat → Prop) (a : Agent) : Prop where
  sessions : ∀ (i : Nat) (s : Session), a.sessions[i]? = some s → s.task.Owned (p i) (q i)
  conns : ∀ c ∈ a.conns, c.closed = true
  files : ∀ f ∈ a.files, f = false

structure Client where
  agent : Agent
  /-- `__running_tasks`: the session that the task belongs to -/
  runningTasks : Dict Bytes Nat := Dict.empty
  /-- the sessions whose `socket_connect` was cancelled and is not over -/
  cancelled : List Nat := []
  terminated : Bool := false

namespace Client

inductive Event
  | agent (e : Agent.Event)
  /-- `finally: await client.terminate()` -/
  | terminate
  /-- the `socket_connect` of session `i` is cancelled where it waits -/
  | mainCancel (i : Nat)

/-- `terminate`: both tables are gone through and emptied. -/
def terminate (s : Client) : Client where
  agent := { s.agent with
    sessions := s.agent.sessions.mapIdx fun i t => if i ∈ s.agent.servers.values then Agent.cancelServer t else t
    servers := Dict.empty }
  runningTasks := Dict.empty
  -- `cancel` does nothing to a task that is over
  cancelled := s.runningTasks.values.filter fun i => s.agent.sessions[i]?.any fun t => !t.isOver
  terminated := true

/-- A cancelled task takes no step of its own, and nothing is received when the loop of `handle_client` has ended. -/
def takes (s : Client) : Agent.Event → Bool
  | .recv _ _ => !s.terminated
  | .session i e => decide (i ∉ s.cancelled) || !e.isMain
  | _ => true

/-- `__running_tasks` when the agent has become `a`: a session that is new is that of a CONNECT. -/
def created (s : Client) (a : Agent) : Dict Bytes Nat :=
  match a.sessions[s.agent.sessions.length]? with
  | some t => s.runningTasks.set t.cmd.token s.agent.sessions.length
  | none => s.runningTasks

def step (s : Client) : Event → Option (Client × List Agent.Output)
  | .agent e =>
    if s.takes e then
      match s.agent.step e with
      | some (a, o) => some ({ s with agent := a, runningTasks := s.created a }, o)
      | none => none
    else none
  | .terminate =>
    -- `handle_client` awaits `process_incoming` before it comes to its `finally`
    if s.terminated = false ∧ s.agent.incoming = .idle then some (s.terminate, []) else none
  | .mainCancel i =>
    if i ∈ s.cancelled then
      match s.agent.sessions[i]? with
      | some t =>
        match t.task.cancelMain with
        | some k =>
          some ({ s with
            agent := { s.agent with sessions := s.agent.sessions.set i { t with task := k } }
            cancelled := s.cancelled.filter (· ≠ i) }, [])
        | none => none
      | none => none
    else none

def init (full : Bool) (info : WSNGetInfoReply) : Client := { agent := Agent.init full info }

/-- The tasks that `terminate` has cancelled are over, and so is every other task that was cancelled: the first
cancel `__socket_data_in_handle` in their turn. -/
structure Finished (s : Client) : Prop where
  cancelled : s.cancelled = []
  sessions : ∀ t ∈ s.agent.sessions, t.task.isCancelling = false

/-- When `terminate` has a hold on everything, and nobody connects after it. -/
def Releases (s : Client) : Event → Prop
  | .terminate => s.agent.Owned (· ∈ s.runningTasks.values) (· ∈ s.agent.servers.values)
  | .agent (.accept _ _) => s.terminated = false
  | _ => True

end Client

/-! ### The branches -/

namespace TcpClient
variable {s s' : TcpClient} {e : Event} {o : List Effect} {p : Prop}

theorem owned_step (hp : (SessionTask.tcpClient s).Owned p False) (he : p → (Session.Event.tcpClient e).isMain = false)
    (h : s.step e = some (s', o)) : (SessionTask.tcpClient s').Owned p False := by
  obtain ⟨hm, hc⟩ := hp
  simp only [SessionTask.mayOpen, SessionTask.isOpen, SessionTask.Closing, decide_eq_true_eq] at hm hc
  constructor <;> simp only [SessionTask.mayOpen, SessionTask.isOpen, SessionTask.Closing, decide_eq_true_eq]
  · cases e with
    | put c => cases h; exact hm
    | main e => cases mainStep_of_step h <;> simp_all [fail, finish]
    | dataIn e => cases dataInStep_of_step h <;> simpa [finishDataIn] using hm
  · cases e with
    | put c => cases h; exact hc
    | main e =>
      have hp : ¬ p := fun hp => absurd (he hp) (by simp [Session.Event.isMain])
      cases mainStep_of_step h <;> simp_all [fail, finish]
    | dataIn e =>
      cases dataInStep_of_step h with
      | writeFailed exc h1 h2 => rcases h2 with ⟨d, h2⟩ | h2 <;> simp_all
      | _ => simp_all [finishDataIn]

end TcpClient

namespace UdpClient
variable {s s' : UdpClient} {e : Event} {o : List Effect} {p : Prop}

@[simp] theorem loop_main_ne (s : UdpClient) : s.loop.main ≠ .opening := by
  rcases loop_main s with h | h <;> rw [h] <;> decide

theorem closed_loop (h : s.closed = true) : s.loop.closed = true := by
  unfold loop; split <;> simp [h]

theorem owned_step (hp : (SessionTask.udpClient s).Owned p False) (he : p → (Session.Event.udpClient e).isMain = false)
    (h : s.step e = some (s', o)) : (SessionTask.udpClient s').Owned p False := by
  obtain ⟨hm, hc⟩ := hp
  simp only [SessionTask.mayOpen, SessionTask.isOpen, SessionTask.Closing, decide_eq_true_eq] at hm hc
  revert h
  fun_cases step s e <;> rintro ⟨⟩ <;> (try split) <;> constructor <;>
    simp_all [SessionTask.mayOpen, SessionTask.isOpen, SessionTask.Closing, Session.Event.isMain, closed_loop]

end UdpClient

namespace TcpServer
variable {s s' : TcpServer} {e : Event} {o : List Effect} {p : Prop}

theorem owned_step (hp : (SessionTask.tcpServer s).Owned p False) (he : p → (Session.Event.tcpServer e).isMain = false)
    (h : s.step e = some (s', o)) : (SessionTask.tcpServer s').Owned p False := by
  obtain ⟨hm, hc⟩ := hp
  simp only [SessionTask.mayOpen, SessionTask.isOpen, SessionTask.Closing, decide_eq_true_eq] at hm hc
  revert h
  fun_cases step s e <;> rintro ⟨⟩ <;> constructor <;>
    simp_all [SessionTask.mayOpen, SessionTask.isOpen, SessionTask.Closing, Session.Event.isMain]

end TcpServer

namespace UdpServer
variable {s s' : UdpServer} {e : Event} {o : List Effect} {p : Prop}

@[simp] theorem closes_terminate (s : UdpServer) : s.terminate.closes = 0 ↔ s.running = false ∧ s.closes = 0 := by
  unfold terminate; split <;> simp_all

theorem owned_step (hp : (SessionTask.udpServer s).Owned p False) (he : p → (Session.Event.udpServer e).isMain = false)
    (h : s.step e = some (s', o)) : (SessionTask.udpServer s').Owned p False := by
  obtain ⟨hm, hc⟩ := hp
  simp only [SessionTask.mayOpen, SessionTask.isOpen, SessionTask.Closing, decide_eq_true_eq] at hm hc
  revert h
  fun_cases step s e <;> rintro ⟨⟩ <;> constructor <;>
    simp_all [SessionTask.mayOpen, SessionTask.isOpen, SessionTask.Closing, Session.Event.isMain]
  -- `terminate` closes the socket, for the handler is still running
  all_goals grind

end UdpServer

/-! ### The session -/

namespace Session
variable {s s' : Session} {e : Event} {o : List Effect} {p p' q q' : Prop}

@[simp] theorem isMain_taskEvent : (s.taskEvent e).isMain = e.isMain := by
  cases e with
  | opening os => fun_cases outcome s os <;> simp_all [taskEvent, outcome, Event.isMain]
  | _ => rfl

theorem owned_step (hp : s.task.Owned p False) (he : p → e.isMain = false) (h : s.step e = some (s', o)) :
    s'.task.Owned p False := by
  have ht := (step_eq_some h).2
  rw [← isMain_taskEvent (s := s)] at he
  generalize s.taskEvent e = e' at ht he
  generalize s.task = k at hp ht
  generalize s'.task = k' at ht ⊢
  cases ht with
  | tcpClient h => exact TcpClient.owned_step hp he h
  | udpClient h => exact UdpClient.owned_step hp he h
  | tcpServer h => exact TcpServer.owned_step hp he h
  | udpServer h => exact UdpServer.owned_step hp he h
  | nothing => exact ⟨nofun, nofun⟩

/-- A `socket_connect` that is over is not needed. -/
theorem owned_mono (hp : s.task.Owned p q) (h : p → s.isOver = false → p') (hq : q → q') : s.task.Owned p' q' := by
  obtain ⟨hm, hc⟩ := hp
  obtain ⟨cmd, task⟩ := s
  cases task <;> constructor <;>
    simp_all [SessionTask.mayOpen, SessionTask.isOpen, SessionTask.Closing, isOver]
  all_goals grind

theorem owned_cancelServer (hp : s.task.Owned p q) : (Agent.cancelServer s).task.Owned p False := by
  obtain ⟨hm, hc⟩ := hp
  obtain ⟨cmd, task⟩ := s
  cases task <;> constructor <;>
    simp_all [SessionTask.mayOpen, SessionTask.isOpen, SessionTask.Closing, Agent.cancelServer]
  all_goals grind [TaskState.isLive]

end Session

namespace SessionTask
variable {k k' : SessionTask} {p : Prop}

theorem Owned.cancelMain (hp : k.Owned p False) (h : k.cancelMain = some k') : k'.Owned False False := by
  obtain ⟨hm, hc⟩ := hp
  revert h
  fun_cases SessionTask.cancelMain k <;> rintro ⟨⟩ <;> constructor <;>
    simp_all [SessionTask.mayOpen, SessionTask.isOpen, SessionTask.Closing, TcpClient.finish]

/-- When nothing is being cancelled any more, an open socket would be left alone. -/
theorem Owned.not_isOpen (hp : k.Owned False False) (h : k.isCancelling = false) : k.isOpen = false := by
  rw [Bool.eq_false_iff]
  intro ho
  have hc := hp.closing ho
  cases k <;> simp_all [isCancelling, Closing]

end SessionTask

/-! ### The agent -/

namespace Agent
variable {a a' : Agent} {e : Event} {o : List Output} {p p' q : Nat → Prop}

theorem Owned.act (hp : a.Owned p fun _ => False) (hm : e.cmd? = none) (hacc : ∀ i n, e ≠ .accept i n)
    (h : Act e a a' o) : a'.Owned p fun _ => False where
  sessions := by
    intro j s hj
    have hc := change_of_act h
    rw [hm] at hc
    cases hc with
    | @cancel token i s' hq hs =>
      rcases getElem?_set_cases hj with ⟨rfl, rfl⟩ | ⟨hne, hj⟩
      · exact Session.owned_cancelServer (hp.sessions _ _ hs)
      · exact hp.sessions j s hj
    | put hm | create hm | openFile hm | closeFile hm | delFile hm => cases hm
    | conns => exact hp.sessions j s hj
  conns := by
    have hset : ∀ (j : Nat) (c c' : TCPServerConnection), a.conns[j]? = some c → (c.closed = true → c'.closed = true) →
        ∀ d ∈ a.conns.set j c', d.closed = true := by
      intro j c c' hc hcl d hd
      rcases List.mem_or_eq_of_mem_set hd with hd | rfl
      · exact hp.conns d hd
      · exact hcl (hp.conns c (List.mem_of_getElem? hc))
    cases h with
    | accept hs hl peername hx => exact absurd hx (hacc _ _)
    | start hc hx h =>
      rw [conns_putConn]
      exact hset _ _ _ hc (TCPServerConnection.closed_of_step h)
    | conn hc hx he h =>
      rw [conns_putConn]
      exact hset _ _ _ hc (TCPServerConnection.closed_of_step h)
    | beginStop hc hj ha hd hi =>
      simp only [conns_putConn]
      exact hset _ _ _ hc fun h => TCPServerConnection.closed_beginStop (.inl h)
    | endStop hc ha hx =>
      rw [conns_putConn]
      exact hset _ _ _ hc fun _ => rfl
    | _ => exact hp.conns
  files := by
    have hc := change_of_act h
    rw [hm] at hc
    cases hc with
    | put hm | create hm | openFile hm | closeFile hm | delFile hm => cases hm
    | cancel | conns => exact hp.files

theorem Owned.session (hp : a.Owned p q) {i : Nat} {s' : Session} {os : List Effect} (hs : s'.task.Owned (p i) (q i)) :
    (a.putSession i s' os).1.Owned p q where
  sessions j s hj := by
    rw [sessions_putSession] at hj
    rcases getElem?_set_cases hj with ⟨rfl, rfl⟩ | ⟨hne, hj⟩
    · exact hs
    · exact hp.sessions j s hj
  conns := by rw [conns_putSession]; exact hp.conns
  files := by rw [files_putSession]; exact hp.files

/-- What is owned stays owned in a step that is none of a cancelled task, receives nothing and accepts nobody. -/
theorem Owned.step (hp : a.Owned p fun _ => False) (hm : e.cmd? = none) (hacc : ∀ i n, e ≠ .accept i n)
    (hmain : ∀ i e', e = .session i e' → p i → e'.isMain = false) (h : a.step e = some (a', o)) :
    a'.Owned p fun _ => False := by
  rcases step_cases h with ⟨i, e', s, s', o', rfl, -, hs, hstep, heq⟩ | ⟨-, h⟩
  · obtain rfl : a' = (a.putSession i s' o').1 := congrArg Prod.fst heq
    exact hp.session (Session.owned_step (hp.sessions i s hs) (hmain i e' rfl) hstep)
  · exact h.state_preserve (fun ha hp => hp.act hm hacc ha) hp

end Agent

namespace Client
variable {s s' : Client} {e : Event} {o : List Agent.Output} {es : List Event} {os : List Agent.Output}

/-- The invariant: after `terminate` nothing is left alone. -/
def Inv (s : Client) : Prop := s.terminated = true → s.agent.Owned (· ∈ s.cancelled) fun _ => False

theorem owned_terminate (h : s.agent.Owned (· ∈ s.runningTasks.values) (· ∈ s.agent.servers.values)) :
    s.terminate.agent.Owned (· ∈ s.terminate.cancelled) fun _ => False where
  sessions := by
    intro i t ht
    simp only [terminate, List.getElem?_mapIdx, Option.map_eq_some_iff] at ht
    obtain ⟨t, hs, rfl⟩ := ht
    have hover : i ∈ s.runningTasks.values → t.isOver = false → i ∈ s.terminate.cancelled := by
      intro hi ho
      simp [terminate, hi, hs, ho]
    split
    · exact Session.owned_cancelServer (Session.owned_mono (h.sessions i t hs) hover id)
    · exact Session.owned_mono (h.sessions i t hs) hover ‹_›
  conns := h.conns
  files := h.files

theorem owned_mainCancel {i : Nat} {t : Session} {k : SessionTask} (hp : s.agent.Owned (· ∈ s.cancelled) fun _ => False)
    (ht : s.agent.sessions[i]? = some t) (hk : t.task.cancelMain = some k) :
    Agent.Owned (· ∈ s.cancelled.filter (· ≠ i)) (fun _ => False)
      { s.agent with sessions := s.agent.sessions.set i { t with task := k } } where
  sessions := by
    intro j t' hj
    rcases Agent.getElem?_set_cases hj with ⟨rfl, rfl⟩ | ⟨hne, hj⟩
    · simpa using (hp.sessions j t ht).cancelMain hk
    · simpa [hne] using hp.sessions j t' hj
  conns := hp.conns
  files := hp.files

theorem Inv.step (hr : s.Releases e) (hp : s.Inv) (h : s.step e = some (s', o)) : s'.Inv := by
  intro ht
  cases e with
  | agent e =>
    simp only [Client.step] at h
    split at h
    case isFalse => cases h
    rename_i htakes
    split at h <;> cases h
    have hm : e.cmd? = none := by
      cases e with
      | recv data f => simp [takes, show s.terminated = true from ht] at htakes
      | _ => rfl
    refine (hp ht).step hm (fun i n he => ?_) (fun i e' he hi => ?_) ‹_›
    · subst he
      exact absurd ht (by simp [show s.terminated = false from hr])
    · subst he
      simpa [takes, hi] using htakes
  | terminate =>
    simp only [Client.step] at h
    split at h <;> cases h
    exact owned_terminate hr
  | mainCancel i =>
    simp only [Client.step] at h
    split at h
    case isFalse => cases h
    split at h
    case h_2 => cases h
    split at h <;> cases h
    exact owned_mainCancel (hp ht) ‹_› ‹_›

/-- When the tasks that `terminate` has cancelled are over, nothing is open. -/
theorem released_of_run {full : Bool} {info : WSNGetInfoReply} (h : Run step (init full info) es s os)
    (hr : StepsMeet step Releases (init full info) es) (ht : s.terminated = true) (hf : s.Finished) :
    s.agent.Released := by
  have hp := h.invariant_where (P := fun s _ => s.Inv) hr (fun hr hp h => hp.step hr h) (fun ht => by cases ht) ht
  refine ⟨fun t hmem => ?_, hp.conns, hp.files⟩
  obtain ⟨i, hi⟩ := List.getElem?_of_mem hmem
  have := hp.sessions i t hi
  simp only [hf.cancelled, List.not_mem_nil] at this
  exact this.not_isOpen (hf.sessions t hmem)

/-- A TCP client is open and the websocket is dropped: `socket_connect` is cancelled, and cancels the task that
closes the socket. -/
def tcpDropped : List Event :=
  Agent.tcpOpening.map .agent ++ [.terminate, .mainCancel 0, .agent (.session 0 (.tcpClient (.dataIn .cancel)))]

def udpDropped : List Event := Agent.udpOpening.map .agent ++ [.terminate, .mainCancel 0]

/-- The state behind these events. -/
def stateAfter (es : List Event) : Client :=
  ((exec step (init true Agent.someInfo) es).map Prod.fst).getD (init true Agent.someInfo)

/-- The one session of a client can be cancelled. -/
theorem owned_of_single {t : Session} {p q : Nat → Prop} {a : Agent} (hs : a.sessions = [t]) (hc : a.conns = [])
    (hf : a.files = []) (ht : t.task.Owned (p 0) (q 0)) : a.Owned p q where
  sessions i s hi := by
    rw [hs, List.getElem?_singleton] at hi
    split at hi
    · cases hi
      subst i
      exact ht
    · cases hi
  conns := by simp [hc]
  files := by simp [hf]

theorem released_of_run_tcpDropped : (stateAfter tcpDropped).agent.Released := by
  have h : Run step (init true Agent.someInfo) tcpDropped (stateAfter tcpDropped) _ := .of_exec rfl
  have howned : (stateAfter (Agent.tcpOpening.map .agent)).agent.Owned
      (· ∈ (stateAfter (Agent.tcpOpening.map .agent)).runningTasks.values)
      (· ∈ (stateAfter (Agent.tcpOpening.map .agent)).agent.servers.values) :=
    owned_of_single rfl rfl rfl ⟨nofun, fun _ => ⟨nofun, .inr ⟨rfl, nofun, List.mem_cons_self⟩⟩⟩
  refine released_of_run h ?_ rfl ⟨rfl, by decide +kernel⟩
  exact .cons trivial rfl (.cons trivial rfl (.cons trivial rfl (.cons trivial rfl (.cons howned rfl (.cons trivial rfl
    (.cons trivial rfl .nil))))))

/-- The socket of a UDP client stays open. -/
theorem not_released_udpDropped : ¬ ∀ (es : List Event) (s : Client) (os : List Agent.Output),
    Run step (init true Agent.someInfo) es s os → s.terminated = true → s.Finished → s.agent.Released := by
  intro h
  have hrun : Run step (init true Agent.someInfo) udpDropped (stateAfter udpDropped) _ := .of_exec rfl
  have hr := h udpDropped (stateAfter udpDropped) _ hrun rfl ⟨rfl, by decide +kernel⟩
  exact absurd (hr.sessions _ List.mem_cons_self) (by decide +kernel)

end Client

end Wsnet
