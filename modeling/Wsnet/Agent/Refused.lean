import Wsnet.Agent.Answer
import Wsnet.Agent.EndsOnOk

/-!
# What a refused CONNECT leaves behind

`socket_connect` makes its entries at different moments: the table of the connections of a TCP server is emptied before
the listener is asked for, the other entries are made when the socket is open, and nothing is taken back when a later
call raises. `EntriesTask` says which entries a session has made; `refused_iff` compares the tables before the command
and when the handler has returned, where nothing but this session has been at work.
-/

namespace Wsnet

/-- The message is a `WSNErr`. -/
def Effect.isErr : Effect → Bool
  | .sent (.ERR _) => true
  | _ => false

namespace TcpClient
variable {s s' : TcpClient} {e : Event} {o : List Effect}

/-- Before the socket is open nothing happens but its two outcomes. -/
theorem step_of_opening (hp : s.Wf) (hm : s.main = .opening) (h : s.step e = some (s', o)) :
    (∃ c, e = .put c ∧ s'.main = .opening) ∨ (e = .main .opened ∧ s'.main ≠ .opening ∧ s'.dataIn ≠ .none) ∨
      ∃ exc, e = .main (.openFailed exc) ∧ s'.main ≠ .opening ∧ s'.dataIn = .none := by
  have hd := hp.opening hm
  cases e with
  | put c =>
    cases h
    exact .inl ⟨c, rfl, hm⟩
  | main e =>
    cases mainStep_of_step h with
    | opened => exact .inr (.inl ⟨rfl, by simp, by simp⟩)
    | openFailed exc => exact .inr (.inr ⟨exc, rfl, by simp [fail], hd⟩)
    | _ => simp_all
  | dataIn e =>
    cases dataInStep_of_step h with
    | cancelCreated hc | cancel hc => exact absurd hd (hp.cancelled hc).1
    | writeFailed exc hc hd' => rcases hd' with ⟨data, hd'⟩ | hd' <;> simp_all
    | _ => simp_all

theorem dataIn_of_ne_opening (hp : s.Wf) (hm : s.main ≠ .opening) (h : s.step e = some (s', o)) :
    s'.main ≠ .opening ∧ e ≠ .main .opened ∧ (∀ exc, e ≠ .main (.openFailed exc)) ∧
      (s'.dataIn = .none ↔ s.dataIn = .none) := by
  refine ⟨main_ne_opening h hm, ?_⟩
  cases e with
  | put c =>
    cases h
    simp
  | main e => cases mainStep_of_step h <;> simp_all [fail, finish]
  | dataIn e =>
    cases dataInStep_of_step h with
    | writeFailed exc hc hd => rcases hd with ⟨data, hd⟩ | hd <;> simp_all
    | cancel hc => simp_all [finishDataIn, (hp.cancelled hc).1]
    | _ => simp_all [finishDataIn]

end TcpClient

namespace UdpClient
variable {s s' : UdpClient} {e : Event} {o : List Effect}

/-- What goes wrong is printed, and not replied. -/
theorem isErr_of_step (h : s.step e = some (s', o)) : ∀ x ∈ o, x.isErr = false := by
  revert h
  fun_cases step s e <;> rintro ⟨⟩ <;> simp [Effect.isErr, continueReply]

end UdpClient

namespace TcpServer
variable {s s' : TcpServer} {e : Event} {o os : List Effect}

/-- Which entries `socket_connect` has made. -/
structure Made (s : TcpServer) (os : List Effect) : Prop where
  wf : s.Wf
  reset : .resetTcpConnections ∈ os ↔ s.normal = true ∧ s.main ≠ .created
  setServer : .setServer ∈ os ↔ s.serve ≠ .none
  /-- who replies an `ERR` has not entered its server -/
  refused : (∃ x ∈ os, x.isErr = true) → s.serve = .none ∧ (s.main = .sendingErr ∨ s.main = .done)

theorem normal_of_step (h : s.step e = some (s', o)) : s'.normal = s.normal := by
  revert h
  fun_cases step s e <;> rintro ⟨⟩ <;> rfl

theorem Made.step (hp : s.Made os) (h : s.step e = some (s', o)) : s'.Made (os ++ o) := by
  obtain ⟨hwf, hreset, hserver, hrefused⟩ := hp
  refine ⟨hwf.step h, ?_, ?_, ?_⟩
  · revert h
    fun_cases TcpServer.step s e <;> rintro ⟨⟩ <;> simp_all
  · have hserve := hwf.serve
    revert h
    fun_cases TcpServer.step s e <;> rintro ⟨⟩ <;> simp_all
  · have hserve := hwf.serve
    simp only [List.mem_append, or_and_right, exists_or]
    revert h
    fun_cases TcpServer.step s e <;> rintro ⟨⟩ <;> simp_all [Effect.isErr, continueReply, errReply]

end TcpServer

namespace Session
variable {s s' : Session} {c : WSNConnect} {e : Event} {es : List Event} {o os : List Effect}

/-- One of the calls that open the socket has raised. -/
def Raised (c : WSNConnect) (es : List Event) : Prop := ∃ o ∈ openings es, o.firstExc (openCalls c o) ≠ none

/-- Which entries a session has made, branch by branch. -/
def EntriesTask (c : WSNConnect) (es : List Event) (os : List Effect) : SessionTask → Prop
  | .tcpClient t => c.kind = .tcpClient ∧ t.Wf ∧ (∀ i, os.foldl (Agent.processEntry i) none = t.entry i) ∧
      ((t.main = .opening ∧ openings es = []) ∨ (t.main ≠ .opening ∧ ∃ o, openings es = [o] ∧
        (t.dataIn = .none ↔ o.firstExc (openCalls c o) ≠ none)))
  | .udpClient _ => c.kind = .udpClient ∧ ∀ x ∈ os, x.isErr = false
  | .tcpServer t => c.kind = (if t.normal then .tcpServer else .tcpServerOther) ∧ t.Made os
  | .udpServer t => c.kind ∈ [.udpServer, .llmnr, .nbtns, .mdns] ∧
      ((t.Fresh ∧ os = [] ∧ openings es = []) ∨ (t.main ≠ .opening ∧ ∃ o, openings es = [o] ∧
        (.setServer ∈ os ↔ o.firstExc (openCalls c o) = none) ∧
        ∀ ct, .setServerQueue ct ∈ os → o.firstExc (openCalls c o) = none))
  | .nothing _ => c.kind = .udpServerOther ∧ os = []

theorem entriesTask_create (full : Bool) (c : WSNConnect) : EntriesTask c [] [] (create full c).task := by
  unfold create
  cases h : c.kind with
  | tcpClient => exact ⟨h, ⟨fun _ => rfl, by simp, by simp⟩, fun i => by simp [TcpClient.entry], .inl ⟨rfl, rfl⟩⟩
  | udpClient => exact ⟨h, by simp⟩
  | tcpServer | tcpServerOther => exact ⟨h, ⟨by simp, by simp⟩, by simp, by simp, by simp⟩
  | udpServer | llmnr | nbtns | mdns => exact ⟨by simp [h], .inl ⟨⟨rfl, rfl, rfl, rfl⟩, rfl, rfl⟩⟩
  | udpServerOther => exact ⟨h, rfl⟩

theorem EntriesTask.step (hc : s.cmd = c) (hp : EntriesTask c es os s.task) (h : s.step e = some (s', o)) :
    EntriesTask c (es ++ [e]) (os ++ o) s'.task := by
  obtain ⟨-, ht⟩ := step_eq_some h
  have hopen := opening_of_isOutcome h
  generalize hk : s.task = k at hp ht
  generalize s'.task = k' at ht
  generalize he : s.taskEvent e = e' at ht hopen
  cases ht with
  | nothing => exact ⟨hp.1, by rw [List.append_nil]; exact hp.2⟩
  | udpClient hs =>
    refine ⟨hp.1, fun x hx => ?_⟩
    rcases List.mem_append.1 hx with hx | hx
    · exact hp.2 x hx
    · exact UdpClient.isErr_of_step hs x hx
  | tcpServer hs => exact ⟨by rw [TcpServer.normal_of_step hs]; exact hp.1, hp.2.step hs⟩
  | @tcpClient t t' e' o hs =>
    obtain ⟨hkind, hwf, hentry, hphase⟩ := hp
    have hk' : ∀ b, s.task ≠ .nothing b := by simp [hk]
    refine ⟨hkind, hwf.step hs, fun i => ?_, ?_⟩
    · rw [List.foldl_append, hentry i]
      exact TcpClient.entry_step hwf hs
    · rw [openings_snoc]
      rcases hphase with ⟨hm, hes⟩ | ⟨hm, o₀, hes, hiff⟩
      · rcases TcpClient.step_of_opening hwf hm hs with ⟨c', rfl, hm'⟩ | ⟨rfl, hm', hd⟩ | ⟨exc, rfl, hm', hd⟩
        · exact .inl ⟨hm', by rw [hes, openings_of_isOutcome_eq_false hk' (by rw [he]; rfl)]; rfl⟩
        · obtain ⟨o₀, rfl⟩ := hopen rfl
          have hf : o₀.firstExc (openCalls c o₀) = none := by
            cases hf : o₀.firstExc (openCalls c o₀) <;> simp_all [taskEvent, outcome]
          exact .inr ⟨hm', o₀, by rw [hes]; rfl, by simp [hd, hf]⟩
        · obtain ⟨o₀, rfl⟩ := hopen rfl
          have hf : o₀.firstExc (openCalls c o₀) ≠ none := by
            cases hf : o₀.firstExc (openCalls c o₀) <;> simp_all [taskEvent, outcome]
          exact .inr ⟨hm', o₀, by rw [hes]; rfl, by simp [hd, hf]⟩
      · obtain ⟨hm', hopened, hfailed, hd⟩ := TcpClient.dataIn_of_ne_opening hwf hm hs
        have hnil : openings [e] = [] := openings_of_isOutcome_eq_false hk' (by
          rw [he]
          unfold Event.isOutcome
          split <;> simp_all)
        exact .inr ⟨hm', o₀, by rw [hes, hnil]; rfl, hd.trans hiff⟩
  | @udpServer t t' e' o hs =>
    have hk' : ∀ b, s.task ≠ .nothing b := by simp [hk]
    refine ⟨hp.1, .inr ?_⟩
    rw [openings_snoc]
    rcases hp.2 with ⟨hfresh, rfl, hes⟩ | ⟨hm, o₀, hes, hserver, hqueue⟩
    · rcases UdpServer.step_of_opening hfresh.1 hfresh.2.1 hfresh.2.2.1 hfresh.2.2.2 hs with
        ⟨bound, rfl, rfl, rfl⟩ | ⟨exc, rfl, rfl, rfl⟩
      · obtain ⟨o₀, rfl⟩ := hopen rfl
        have hf : o₀.firstExc (openCalls c o₀) = none := by
          cases hf : o₀.firstExc (openCalls c o₀) <;> simp_all [taskEvent, outcome]
        exact ⟨by simp, o₀, by rw [hes]; rfl, by simp [hf], fun _ _ => hf⟩
      · obtain ⟨o₀, rfl⟩ := hopen rfl
        have hf : o₀.firstExc (openCalls c o₀) ≠ none := by
          cases hf : o₀.firstExc (openCalls c o₀) <;> simp_all [taskEvent, outcome]
        exact ⟨by simp [UdpServer.fail], o₀, by rw [hes]; rfl, by simp [UdpServer.fail, hf], by simp [UdpServer.fail]⟩
    · obtain ⟨hm', hopened, hfailed, hsent⟩ := UdpServer.step_of_ne_opening hm hs
      have hnil : openings [e] = [] := openings_of_isOutcome_eq_false hk' (by
        rw [he]
        unfold Event.isOutcome
        split <;> simp_all)
      refine ⟨hm', o₀, by rw [hes, hnil]; rfl, ?_, fun ct hct => ?_⟩
      · rw [List.mem_append, or_iff_left, hserver]
        intro hx
        obtain ⟨m, hm⟩ := hsent _ hx
        cases hm
      · rcases List.mem_append.1 hct with hct | hct
        · exact hqueue ct hct
        · obtain ⟨m, hm⟩ := hsent _ hct
          cases hm

theorem entriesTask_of_run {full : Bool} (h : Run step (create full c) es s os) : EntriesTask c es os s.task :=
  (h.history_invariant_of (P := fun es s os => s.cmd = c ∧ EntriesTask c es os s.task) (A := fun _ => True)
    (fun _ hp hs => ⟨(step_eq_some hs).1.trans hp.1, hp.2.step hp.1 hs⟩) (fun _ _ => trivial)
    ⟨rfl, entriesTask_create full c⟩).2

theorem branches_of_run (h : Run step s es s' os) :
    s'.task.branch = s.task.branch ∧ ∀ x ∈ os, s.task.branch ∈ x.branches := by
  refine h.invariant (P := fun s' os => s'.task.branch = s.task.branch ∧ ∀ x ∈ os, s.task.branch ∈ x.branches)
    ?_ ⟨rfl, by simp⟩
  rintro s' s'' e o os ⟨hb, hp⟩ hs
  refine ⟨(branch_of_step hs).trans hb, fun x hx => ?_⟩
  rcases List.mem_append.1 hx with hx | hx
  · exact hp x hx
  · exact hb ▸ branches_of_step hs x hx

theorem mem_openings {x : Os} : x ∈ openings es ↔ .opening x ∈ es := by
  simp only [openings, List.mem_filterMap]
  constructor
  · rintro ⟨e, he, hx⟩
    cases e <;> cases hx
    exact he
  · intro he
    exact ⟨_, he, rfl⟩

end Session

/-! ### A session that has the agent to itself -/

namespace Agent
variable {a a' b : Agent} {es : List Event} {os : List Output} {i : Nat} {s : Session} {token : Bytes}

/-- The four tables in which `socket_connect` makes entries. -/
def entryTables (a : Agent) : Dict Bytes Nat × Dict Bytes Nat × Dict Bytes Bytes × Dict Bytes (Dict Bytes Nat) :=
  (a.processQueues, a.servers, a.serverQueues, a.serverTcpConnections)

theorem entryTables_foldl (h : a.entryTables = b.entryTables) (os : List Effect) :
    (os.foldl (applyEffect token i) a).entryTables = (os.foldl (applyEffect token i) b).entryTables := by
  induction os generalizing a b with
  | nil => exact h
  | cons e os ih =>
    refine ih ?_
    simp only [entryTables, Prod.mk.injEq] at h
    obtain ⟨h1, h2, h3, h4⟩ := h
    cases e <;> simp only [applyEffect, entryTables, h1, h2, h3, h4]

/-- The session takes a step, or a command is put into its queue. -/
def Own (i : Nat) (a : Agent) : Event → Prop
  | .session j _ => j = i
  | .recv data _ => ∃ c, CMD.fromBytes data = .ok c ∧ a.processQueues.get? c.token = some i
  | _ => False

/-- A command for the queue of a session goes there, if it is still read. -/
theorem put_of_recv {data : Bytes} {f : FileOs} {c : CMD} (hc : CMD.fromBytes data = .ok c)
    (hq : a.processQueues.get? c.token = some i) (hs : a.sessions[i]? = some s)
    (h : a.step (.recv data f) = some (a', os)) :
    os = [.received c, .returned true] ∧ ((∃ t, s.task = .tcpClient t ∧
      a' = { a with sessions := a.sessions.set i ⟨s.cmd, .tcpClient { t with inQ := t.inQ ++ [c] }⟩, incoming := .idle }) ∨
        a' = { a with incoming := .idle }) := by
  simp only [step, hc] at h
  split at h
  · obtain ⟨cmd, task⟩ := s
    cases task with
    | tcpClient t =>
      simp only [processIncoming, hq, hs, return_, andThen, Option.some.injEq, Prod.mk.injEq] at h
      exact ⟨h.2.symm, .inl ⟨t, rfl, h.1.symm⟩⟩
    | _ =>
      simp only [processIncoming, hq, hs, return_, andThen, Option.some.injEq, Prod.mk.injEq] at h
      exact ⟨h.2.symm, .inr h.1.symm⟩
  · cases h

theorem own_run (h : Run step a es a' os) (ho : StepsMeet step (Own i) a es) (hs : a.sessions[i]? = some s) :
    ∃ (ses : List Session.Event) (o : List Effect) (s' : Session), Run Session.step s ses s' o ∧
      a'.sessions[i]? = some s' ∧
      a'.entryTables = (o.foldl (applyEffect s.cmd.token i) a).entryTables ∧
      (∀ x, .session s.cmd.token x ∈ os ↔ x ∈ o) ∧ ∀ x, .session i (.opening x) ∈ es ↔ .opening x ∈ ses := by
  induction h generalizing s with
  | nil a => exact ⟨[], [], s, .nil s, hs, rfl, by simp, by simp⟩
  | @cons a a₁ a' e es o os hstep hrun ih =>
    have hown := ho.head
    have htail := ho.tail hstep
    cases e with
    | session j e =>
      obtain rfl : j = i := hown
      simp only [step] at hstep
      split at hstep
      · cases hstep
      · rw [hs] at hstep
        obtain ⟨⟨s₁, o₁⟩, hs₁, heq⟩ := Option.map_eq_some_iff.1 hstep
        obtain ⟨rfl, rfl⟩ := Prod.ext_iff.1 heq
        have hcmd : s₁.cmd = s.cmd := (Session.step_eq_some hs₁).1
        have hj : j < a.sessions.length := (List.getElem?_eq_some_iff.1 hs).1
        obtain ⟨ses, o, s', hses, hs', htables, hout, hopen⟩ := ih htail (s := s₁) (by simp [hj])
        rw [hcmd] at htables hout
        refine ⟨e :: ses, o₁ ++ o, s', .cons hs₁ hses, hs', ?_, fun x => ?_, fun x => ?_⟩
        · rw [htables, List.foldl_append]
          refine entryTables_foldl ?_ o
          rw [putSession, hcmd]
          exact entryTables_foldl (by rfl) o₁
        · rw [List.mem_append, List.mem_append, hout]
          simp [putSession, hcmd]
        · rw [List.mem_cons, List.mem_cons, hopen]
          simp
    | recv data f =>
      obtain ⟨c, hc, hq⟩ := hown
      obtain ⟨rfl, hput⟩ := put_of_recv hc hq hs hstep
      rcases hput with ⟨t, ht, rfl⟩ | rfl
      · have hi : i < a.sessions.length := (List.getElem?_eq_some_iff.1 hs).1
        obtain ⟨ses, o, s', hses, hs', htables, hout, hopen⟩ :=
          ih htail (s := ⟨s.cmd, .tcpClient { t with inQ := t.inQ ++ [c] }⟩) (by simp [hi])
        have hstep₁ : s.step (.tcpClient (.put c)) = some (⟨s.cmd, .tcpClient { t with inQ := t.inQ ++ [c] }⟩, []) := by
          simp [Session.step, Session.stepTask, Session.Event.isOutcome, ht, TcpClient.step]
        refine ⟨.tcpClient (.put c) :: ses, o, s', .cons hstep₁ hses, hs',
          htables.trans (entryTables_foldl (by rfl) o), fun x => ?_,
          fun x => ?_⟩
        · rw [List.mem_append, hout]
          simp
        · rw [List.mem_cons, List.mem_cons, hopen]
          simp
      · obtain ⟨ses, o, s', hses, hs', htables, hout, hopen⟩ := ih htail hs
        refine ⟨ses, o, s', hses, hs', htables.trans (entryTables_foldl (by rfl) o), fun x => ?_, fun x => ?_⟩
        · rw [List.mem_append, hout]
          simp
        · rw [List.mem_cons, hopen]
          simp
    | _ => exact absurd hown id

/-- The command gets to `socket_connect`. -/
theorem create_of_recv {data : Bytes} {f : FileOs} {c : WSNConnect} (hc : CMD.fromBytes data = .ok (.CONNECT c))
    (hq : a.processQueues.get? c.token = none) (h : a.step (.recv data f) = some (a', os)) :
    a' = { a with sessions := a.sessions ++ [Session.create a.full c], incoming := .idle } := by
  have hq : a.processQueues.get? (CMD.CONNECT c).token = none := hq
  simp only [step, hc] at h
  split at h
  · have hdispatch : a.processIncoming (.CONNECT c) f = a.dispatch (.CONNECT c) f := by
      simp [processIncoming, hq, CMD.type]
    rw [hdispatch] at h
    exact (Prod.ext_iff.1 (Option.some.inj h)).1.symm
  · cases h

/-! ### The tables before and after -/

/-- Everything is in the four tables that was there before, and nothing else. -/
structure SameTables (a a' : Agent) : Prop where
  processQueues : ∀ t, a'.processQueues.get? t = a.processQueues.get? t
  servers : ∀ t, a'.servers.get? t = a.servers.get? t
  serverQueues : ∀ t, a'.serverQueues.get? t = a.serverQueues.get? t
  serverTcpConnections : ∀ t, a'.serverTcpConnections.contains t = a.serverTcpConnections.contains t
  connections : ∀ t ct,
    (a'.serverTcpConnections.get? t).bind (·.get? ct) = (a.serverTcpConnections.get? t).bind (·.get? ct)

theorem serverQueues_foldl {o : List Effect} (h : ∀ ct, .setServerQueue ct ∉ o) :
    (o.foldl (applyEffect token i) a).serverQueues = a.serverQueues := by
  induction o generalizing a with
  | nil => rfl
  | cons e o ih =>
    rw [List.foldl_cons, ih fun ct hct => h ct (List.mem_cons_of_mem _ hct)]
    cases e with
    | setServerQueue ct => exact absurd List.mem_cons_self (h ct)
    | _ => rfl

theorem foldl_processEntry {o : List Effect} {k : Branch} (h : ∀ x ∈ o, k ∈ x.branches) (hk : k ≠ .tcpClient)
    (x : Option Nat) :
    o.foldl (processEntry i) x = x := by
  induction o with
  | nil => rfl
  | cons e o ih =>
    have he := h e List.mem_cons_self
    have hsame : processEntry i x e = x := by
      cases e with
      | setProcessQueue | delProcessQueue => exact absurd (List.mem_singleton.1 he) hk
      | _ => rfl
    rw [List.foldl_cons, hsame, ih fun x hx => h x (List.mem_cons_of_mem _ hx)]

section After
variable {c : WSNConnect} {o : List Effect}

/-- The tables are those of before with the effects of the session. -/
def After (a : Agent) (i : Nat) (c : WSNConnect) (o : List Effect) (a' : Agent) : Prop :=
  a'.entryTables = (a.putSession i (Session.create a.full c) o).1.entryTables

theorem After.servers (h : After a i c o a') {t : Bytes} :
    a'.servers.get? t = if t = c.token ∧ .setServer ∈ o then some i else a.servers.get? t := by
  have h' : a'.servers = _ := congrArg (·.2.1) h
  rw [h']
  exact servers_putSession

/-- The handler has left its server out of the tables. -/
theorem sameTables_iff (h : After a i c o a') (hserver : .setServer ∉ o) (hqueue : ∀ ct, .setServerQueue ct ∉ o) :
    SameTables a a' ↔ o.foldl (processEntry i) (a.processQueues.get? c.token) = a.processQueues.get? c.token ∧
      (.resetTcpConnections ∈ o → ∃ table, a.serverTcpConnections.get? c.token = some table ∧ table.keys = []) := by
  have hprocess : ∀ t, a'.processQueues.get? t =
      if t = c.token then o.foldl (processEntry i) (a.processQueues.get? t) else a.processQueues.get? t := fun t => by
    have h' : a'.processQueues = _ := congrArg (·.1) h
    rw [h']
    exact processQueues_putSession
  have hqueues : a'.serverQueues = a.serverQueues := by
    have h' : a'.serverQueues = _ := congrArg (·.2.2.1) h
    rw [h']
    exact serverQueues_foldl hqueue
  have htcp : ∀ t, a'.serverTcpConnections.get? t =
      if t = c.token ∧ .resetTcpConnections ∈ o then some Dict.empty else a.serverTcpConnections.get? t := fun t => by
    have h' : a'.serverTcpConnections = _ := congrArg (·.2.2.2) h
    rw [h']
    exact serverTcpConnections_putSession
  constructor
  · intro hsame
    refine ⟨?_, fun hreset => ?_⟩
    · have hp := hsame.processQueues c.token
      rwa [hprocess, if_pos rfl] at hp
    · have htoken : a'.serverTcpConnections.get? c.token = some Dict.empty := by rw [htcp, if_pos ⟨rfl, hreset⟩]
      have hcontains := hsame.serverTcpConnections c.token
      rw [Dict.contains, htoken] at hcontains
      obtain ⟨table, htable⟩ := Option.isSome_iff_exists.1 hcontains.symm
      refine ⟨table, htable, Dict.keys_eq_nil_iff.2 fun ct => ?_⟩
      have hct := hsame.connections c.token ct
      rw [htoken, htable] at hct
      exact hct.symm
  · rintro ⟨hp, hreset⟩
    have hempty : ∀ t, a'.serverTcpConnections.get? t = a.serverTcpConnections.get? t ∨
        a'.serverTcpConnections.get? t = some Dict.empty ∧
          ∃ table, a.serverTcpConnections.get? t = some table ∧ table.keys = [] := by
      intro t
      rw [htcp]
      split
      · rename_i hand
        obtain ⟨rfl, hmem⟩ := hand
        exact .inr ⟨rfl, hreset hmem⟩
      · exact .inl rfl
    refine ⟨fun t => ?_, fun t => ?_, fun t => by rw [hqueues], fun t => ?_, fun t ct => ?_⟩
    · rw [hprocess]
      split
      · subst_vars
        exact hp
      · rfl
    · rw [h.servers, if_neg fun hand => hserver hand.2]
    · rcases hempty t with heq | ⟨heq, table, htable, -⟩
      · rw [Dict.contains, heq, Dict.contains]
      · rw [Dict.contains, heq, Dict.contains, htable]
        rfl
    · rcases hempty t with heq | ⟨heq, table, htable, hkeys⟩
      · rw [heq]
      · rw [heq, htable]
        exact (Dict.keys_eq_nil_iff.1 hkeys ct).symm

end After

/-! ### The handler has returned -/

/-- One of the calls that open the socket of the session has raised. -/
def OpenRaised (i : Nat) (c : WSNConnect) (es : List Event) : Prop :=
  ∃ x, .session i (.opening x) ∈ es ∧ x.firstExc (openCalls c x) ≠ none

/-- The queue of a TCP connection is gone where the socket has not been opened, or where `__socket_data_in_handle` has
been through its `finally`; a TCP bind empties the table of its token, which must have been empty; a UDP bind enters
its server when the socket is open. -/
def LeavesNoTrace (a : Agent) (c : WSNConnect) (es : List Event) (a' : Agent) : Prop :=
  match c.kind with
  | .tcpClient => OpenRaised a.sessions.length c es ∨
      ∃ cmd t, a'.sessions[a.sessions.length]? = some ⟨cmd, .tcpClient t⟩ ∧ t.closed = true
  | .tcpServer => ∃ table, a.serverTcpConnections.get? c.token = some table ∧ table.keys = []
  | .tcpServerOther => True
  | _ => OpenRaised a.sessions.length c es

theorem tables_of_run {full : Bool} {info : WSNGetInfoReply} (h : Run step (init full info) es a os) : Tables a :=
  h.state_invariant (P := Tables) (fun hp hs => hp.step hs) (.init full info)

section
variable {c : WSNConnect} {o : List Effect} {ses : List Session.Event}

theorem same_tcpClient {t : TcpClient} (hA : After a i c o a') (hq : a.processQueues.get? c.token = none)
    (hb : ∀ x ∈ o, .tcpClient ∈ x.branches) (hk : Session.EntriesTask c ses o (.tcpClient t)) (hm : t.main = .done) :
    SameTables a a' ↔ Session.Raised c ses ∨ t.closed = true := by
  obtain ⟨hkind, hwf, hentry, ⟨hm', -⟩ | ⟨-, x, hx, hiff⟩⟩ := hk
  · rw [hm] at hm'
    cases hm'
  have hserver : .setServer ∉ o := fun hmem => by simpa [Effect.branches] using hb _ hmem
  have hqueue : ∀ ct, .setServerQueue ct ∉ o := fun ct hmem => by simpa [Effect.branches] using hb _ hmem
  have hreset : .resetTcpConnections ∉ o := fun hmem => by simpa [Effect.branches] using hb _ hmem
  rw [sameTables_iff hA hserver hqueue, hq, hentry, and_iff_left fun hmem => absurd hmem hreset]
  have hnone : t.entry i = none ↔ t.dataIn = .none ∨ t.closed = true := by
    unfold TcpClient.entry
    split
    · exact iff_of_true rfl ‹_›
    · exact iff_of_false (by simp) ‹_›
  have hraised : Session.Raised c ses ↔ x.firstExc (openCalls c x) ≠ none := by simp [Session.Raised, hx]
  rw [hnone, hiff, hraised]

theorem same_tcpServer {t : TcpServer} (hA : After a i c o a') (hb : ∀ x ∈ o, .tcpServer ∈ x.branches)
    (hk : Session.EntriesTask c ses o (.tcpServer t)) (hm : t.main = .done) (herr : ∃ x ∈ o, x.isErr = true) :
    SameTables a a' ↔ (t.normal = true → ∃ table, a.serverTcpConnections.get? c.token = some table ∧
      table.keys = []) := by
  obtain ⟨-, hmade⟩ := hk
  have hserver : .setServer ∉ o := fun hmem => hmade.setServer.1 hmem (hmade.refused herr).1
  have hqueue : ∀ ct, .setServerQueue ct ∉ o := fun ct hmem => by simpa [Effect.branches] using hb _ hmem
  rw [sameTables_iff hA hserver hqueue, foldl_processEntry hb (by rintro ⟨⟩), hmade.reset]
  simp [hm]

theorem same_udpServer {t : UdpServer} (hA : After a i c o a') (hT : Tables a) (hi : a.sessions.length ≤ i)
    (hb : ∀ x ∈ o, .udpServer ∈ x.branches) (hk : Session.EntriesTask c ses o (.udpServer t)) (hm : t.main = .done) :
    SameTables a a' ↔ Session.Raised c ses := by
  obtain ⟨-, ⟨hfresh, -⟩ | ⟨-, x, hx, hserver, hqueue⟩⟩ := hk
  · rw [hfresh.1] at hm
    cases hm
  have hraised : Session.Raised c ses ↔ x.firstExc (openCalls c x) ≠ none := by simp [Session.Raised, hx]
  rw [hraised]
  by_cases hx' : x.firstExc (openCalls c x) = none
  · -- the entry in `__servers` is a new one
    refine iff_of_false (fun hsame => ?_) fun hne => hne hx'
    have hnew := hsame.servers c.token
    rw [hA.servers, if_pos ⟨rfl, hserver.2 hx'⟩] at hnew
    have hold : ∀ {k : Branch}, ¬ Has a.sessions i c.token k := by
      rintro k ⟨s, hs, -⟩
      exact absurd (List.getElem?_eq_some_iff.1 hs).1 (by omega)
    exact (hT.server hnew.symm).elim hold hold
  · have hreset : .resetTcpConnections ∉ o := fun hmem => by simpa [Effect.branches] using hb _ hmem
    refine iff_of_true ?_ hx'
    rw [sameTables_iff hA (fun hmem => hx' (hserver.1 hmem)) fun ct hct => hx' (hqueue ct hct)]
    exact ⟨foldl_processEntry hb (by rintro ⟨⟩) _, fun hmem => absurd hmem hreset⟩

end

/-- Where nothing but the session has been at work, the tables are the same when a handler that has replied an `ERR` has
returned if and only if it `LeavesNoTrace`. -/
theorem refused_iff {full : Bool} {info : WSNGetInfoReply} {es₀ : List Event} {os₀ os₁ : List Output} {a₁ : Agent}
    {data : Bytes} {f : FileOs} {c : WSNConnect} (h₀ : Run step (init full info) es₀ a os₀)
    (hc : CMD.fromBytes data = .ok (.CONNECT c)) (hq : a.processQueues.get? c.token = none)
    (h₁ : a.step (.recv data f) = some (a₁, os₁)) (h : Run step a₁ es a' os)
    (ho : StepsMeet step (Own a.sessions.length) a₁ es)
    (hover : ∃ s, a'.sessions[a.sessions.length]? = some s ∧ s.isOver = true)
    (herr : ∃ exc, .session c.token (.sent (errReply a.full c.token ("Socket connect failed: " ++ exc) exc)) ∈ os) :
    SameTables a a' ↔ LeavesNoTrace a c es a' := by
  obtain rfl := create_of_recv hc hq h₁
  obtain ⟨ses, o, s, hses, hs, htables, hout, hopen⟩ := own_run h ho (s := Session.create a.full c) (by simp)
  have hA : After a a.sessions.length c o a' := htables.trans (entryTables_foldl (by rfl) o)
  have hcmd : (Session.create a.full c).cmd = c := rfl
  have hraised : OpenRaised a.sessions.length c es ↔ Session.Raised c ses := by
    simp only [OpenRaised, Session.Raised, hopen, Session.mem_openings]
  have herr' : ∃ x ∈ o, x.isErr = true := by
    obtain ⟨exc, hexc⟩ := herr
    exact ⟨_, (hout _).1 hexc, rfl⟩
  obtain ⟨s', hs', hover⟩ := hover
  cases hs.symm.trans hs'
  have hb := (Session.branches_of_run hses).2
  have hbranch := (Session.branches_of_run hses).1
  have hk := Session.entriesTask_of_run hses
  obtain ⟨cmd, task⟩ := s
  rw [← hbranch] at hb
  unfold LeavesNoTrace
  cases task with
  | tcpClient t =>
    have hm : t.main = .done := by simpa [Session.isOver] using hover
    rw [same_tcpClient hA hq hb hk hm, hk.1, hs, hraised]
    simp
  | udpClient t =>
    obtain ⟨x, hx, hx'⟩ := herr'
    rw [hk.2 x hx] at hx'
    cases hx'
  | tcpServer t =>
    have hm : t.main = .done := by simpa [Session.isOver] using hover
    rw [same_tcpServer hA hb hk hm herr', hk.1]
    cases t.normal <;> simp
  | udpServer t =>
    have hm : t.main = .done := by simpa [Session.isOver] using hover
    rw [same_udpServer hA (tables_of_run h₀) (le_refl _) hb hk hm, ← hraised]
    have hkind := hk.1
    simp only [List.mem_cons, List.not_mem_nil, or_false] at hkind
    rcases hkind with hkind | hkind | hkind | hkind <;> rw [hkind]
  | nothing b =>
    obtain ⟨x, hx, -⟩ := herr'
    rw [hk.2] at hx
    cases hx

/-- The command of `connectFrame`. -/
def connectH (bind : Bool) : WSNConnect :=
  { token := List.replicate 16 3, protocol := "TCP", ip := "h", port := 53, bind }

/-- The agent that has taken it. -/
def connecting (bind : Bool) : Agent := { init true someInfo with sessions := [Session.create true (connectH bind)] }

def refusal : List Event := [.session 0 (.opening Session.unresolved), .session 0 (.tcpClient (.main .sent))]

/-- A TCP connection to a host that does not resolve. -/
theorem refused_iff_refusal :
    ∃ a' os, Run step (init true someInfo) (.recv (connectFrame "TCP" 0) {} :: refusal) a' os ∧
    SameTables (init true someInfo) a' := by
  have hc : CMD.fromBytes (connectFrame "TCP" 0) = .ok (.CONNECT (connectH false)) := rfl
  have h₁ : (init true someInfo).step (.recv (connectFrame "TCP" 0) {}) =
    some (connecting false, [.received (.CONNECT (connectH false)), .returned true]) := rfl
  have h : Run step (connecting false) refusal _ _ := .of_exec rfl
  have ho : ∀ a, StepsMeet step (Own 0) a refusal := by
    rintro a es₁ e es₂ s os he -
    have hmem : e ∈ refusal := he ▸ List.mem_append_right _ List.mem_cons_self
    simp only [refusal, List.mem_cons, List.not_mem_nil, or_false] at hmem
    rcases hmem with rfl | rfl <;> exact rfl
  have hraised : OpenRaised 0 (connectH false) refusal :=
    ⟨Session.unresolved, by simp [refusal], by simp [Session.unresolved, Os.firstExc, openCalls, connectH,
      WSNConnect.kind]⟩
  exact ⟨_, _, .cons h₁ h, (refused_iff (.nil _) hc rfl h₁ h (ho _) ⟨_, rfl, rfl⟩
    ⟨"Name or service not known", .head _⟩).2 (.inl hraised)⟩

/-- A TCP bind to an address that does not resolve: the token has a table of connections. -/
theorem not_sameTables_bind : ¬ ∀ (es : List Event) (a a₁ a' : Agent) (os₁ os : List Output) (data : Bytes) (f : FileOs)
    (c : WSNConnect), (∃ full info es₀ os₀, Run step (init full info) es₀ a os₀) →
    CMD.fromBytes data = .ok (.CONNECT c) →
    a.processQueues.get? c.token = none → a.step (.recv data f) = some (a₁, os₁) → Run step a₁ es a' os →
    StepsMeet step (Own a.sessions.length) a₁ es → (∃ s, a'.sessions[a.sessions.length]? = some s ∧ s.isOver = true) →
    (∃ exc, .session c.token (.sent (errReply a.full c.token ("Socket connect failed: " ++ exc) exc)) ∈ os) →
    SameTables a a' := by
  intro h
  have hsame := h [.session 0 (.tcpServer .start), .session 0 (.opening Session.unresolved),
    .session 0 (.tcpServer .sent)]
    (init true someInfo) (connecting true) _ _ _ (connectFrame "TCP" 1) {}
    (connectH true) ⟨_, _, _, _, .nil _⟩ rfl rfl rfl
    (.of_exec rfl) (.cons rfl rfl (.cons rfl rfl (.cons rfl rfl .nil))) ⟨_, rfl, rfl⟩
    ⟨"Name or service not known", .tail _ (.head _)⟩
  have hcontains := hsame.serverTcpConnections (connectH true).token
  cases hcontains

end Agent

end Wsnet
