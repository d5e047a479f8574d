import Wsnet.Agent.Entries

/-!
# What an OK ends

The client ends whatever it has opened under a token by sending `OK` with it. `Ended` is what it may
then expect: the socket or file is closed, no table knows the token, and data for it is refused. For
an open file this is one step. For a TCP client session the `OK` is put behind the data that waits to
be written, and stays in the queue until `__socket_data_in_handle` takes it or is over (`OkSeen`). For
the other sessions the token stays in `server_queues` or `server_tcp_connections` whatever happens.
-/

namespace Wsnet

/-- The socket or the listener is open. -/
def SessionTask.isOpen : SessionTask → Bool
  | .tcpClient s => s.dataIn ≠ .none ∧ s.closed = false
  | .udpClient s => s.writer ≠ .none ∧ s.closed = false
  | .tcpServer s => s.listening
  | .udpServer s => s.run ≠ .none ∧ s.closes = 0
  | .nothing _ => false

/-- The tasks that an `OK` wakes have run: no command waits in a queue that is read, and no cancellation
waits to be delivered. -/
def SessionTask.isQuiet : SessionTask → Bool
  | .tcpClient s => s.dataIn = .done ∨ s.dataIn = .getting ∧ s.inQ = [] ∧ s.cancelled = false
  | .udpClient _ => true
  | .tcpServer s => ¬ (s.cancelled ∧ (s.serve = .created ∨ s.serve = .serving))
  | .udpServer s => ¬ (s.runCancelled ∧ s.run.isLive) ∧ ¬ (s.watchdogCancelled ∧ s.watchdog.isLive) ∧
      ¬ (s.writerCancelled ∧ s.writer.isLive)
  | .nothing _ => true

namespace TcpClient
variable {s s' : TcpClient} {e : Event} {o : List Effect} {p : Prop}

/-- `p` says whether `__socket_data_in_handle` has started: only then does its `finally` close the socket. -/
def Started (s : TcpClient) (p : Prop) : Prop :=
  match s.dataIn with
  | .none | .created => ¬ p
  | .done => s.closed = true ↔ p
  | _ => p

theorem Started.step (hwf : s.Wf) (hp : s.Started p) (h : s.step e = some (s', o)) :
    s'.Started (p ∨ e = .dataIn .start) := by
  obtain ⟨ho, hc, hcl⟩ := hwf
  cases e with
  | put c => cases h; simpa [Started] using hp
  | main e =>
    cases mainStep_of_step h with
    | opened hm => simp_all [Started]
    | _ => simpa [Started, fail, finish] using hp
  | dataIn e =>
    cases dataInStep_of_step h with
    | writeFailed exc h1 h2 => rcases h2 with ⟨d, h2⟩ | h2 <;> simp_all [Started]
    | cancel h1 h2 => cases hd : s.dataIn <;> simp_all [Started, finishDataIn]
    | _ => simp_all [Started, finishDataIn]

/-- An `OK` is in the queue, or the task that reads the queue is past reading. -/
def OkSeen (s : TcpClient) : Prop :=
  s.dataIn ≠ .none ∧ ((∃ c, .OK c ∈ s.inQ) ∨ s.dataIn = .sendingErr ∨ s.dataIn = .done)

theorem OkSeen.step (hwf : s.Wf) (hp : s.OkSeen) (h : s.step e = some (s', o)) : s'.OkSeen := by
  obtain ⟨ho, hc, hcl⟩ := hwf
  obtain ⟨hd, hp⟩ := hp
  cases e with
  | put c =>
    cases h
    exact ⟨hd, hp.imp (fun ⟨c, hm⟩ => ⟨c, List.mem_append_left _ hm⟩) id⟩
  | main e =>
    cases mainStep_of_step h with
    | opened hm => exact absurd (ho hm) hd
    | _ => exact ⟨hd, hp⟩
  | dataIn e =>
    cases dataInStep_of_step h with
    | gotOther c inQ h1 h2 hq hok => exact ⟨hd, by simpa [hq, h2, (hok _).symm] using hp⟩
    | gotData c inQ h1 h2 hq => exact ⟨nofun, by simpa [hq, h2] using hp⟩
    | start h1 h2 | drained h1 h2 => exact ⟨nofun, by simpa [h2] using hp⟩
    | wake d h1 h2 => exact ⟨nofun, by simpa [h2] using hp⟩
    | writeFailed => exact ⟨nofun, .inr (.inl rfl)⟩
    | _ => exact ⟨nofun, .inr (.inr rfl)⟩

end TcpClient

namespace Session

theorem taskEvent_eq_start {s : Session} {e : Event} :
    s.taskEvent e = .tcpClient (.dataIn .start) ↔ e = .tcpClient (.dataIn .start) := by
  cases e with
  | opening o => fun_cases outcome s o <;> simp_all [taskEvent, outcome]
  | _ => rfl

end Session

namespace Agent
variable {m : Option CMD} {a a' a₁ : Agent} {e : Event} {es : List Event} {o os : List Output} {i k : Nat} {t : Bytes}

/-- `__socket_data_in_handle` of session `i` starts. -/
def startEvent (i : Nat) : Event := .session i (.tcpClient (.dataIn .start))

/-- The TCP client sessions are where the events so far have taken them. -/
def History (es : List Event) (a : Agent) : Prop :=
  (∀ i, startEvent i ∈ es → i < a.sessions.length) ∧
    ∀ (i : Nat) (s : Session) (tc : TcpClient), a.sessions[i]? = some s → s.task = .tcpClient tc →
      tc.Started (startEvent i ∈ es)

theorem History.act (hp : History es a) (h : Act e a a' o) : History es a' := by
  obtain ⟨hlen, hp⟩ := hp
  cases change_of_act h with
  | @put c i cmd t hm hq hs =>
    refine ⟨by simpa using hlen, fun j s₀ tc hj htc => ?_⟩
    rcases getElem?_set_cases hj with ⟨rfl, rfl⟩ | ⟨hne, hj⟩
    · cases htc; exact hp j ⟨cmd, .tcpClient t⟩ t hs rfl
    · exact hp j s₀ tc hj htc
  | cancel hq hs =>
    refine ⟨by simpa using hlen, fun j s₀ tc hj htc => ?_⟩
    rcases getElem?_set_cases hj with ⟨rfl, rfl⟩ | ⟨hne, hj⟩
    · exact hp j _ tc hs (tcpClient_cancelServer htc)
    · exact hp j s₀ tc hj htc
  | create hm =>
    refine ⟨fun j hj => by have := hlen j hj; simp only [List.length_append]; omega, fun j s₀ tc hj htc => ?_⟩
    rw [List.getElem?_append] at hj
    split at hj
    · exact hp j s₀ tc hj htc
    · obtain ⟨hlt, rfl⟩ := List.getElem?_eq_some_iff.1 hj
      simp only [List.getElem_singleton] at htc
      rw [TcpClient.Started, (tcpClient_create htc).2]
      intro hmem
      have := hlen j hmem
      omega
  | _ => exact ⟨hlen, hp⟩

theorem History.step (hent : Entries a) (hp : History es a) (h : a.step e = some (a', o)) : History (es ++ [e]) a' := by
  rcases step_cases h with ⟨i, e', s, s', o', rfl, -, hs, hstep, heq⟩ | ⟨he, h⟩
  · obtain rfl : a' = (a.putSession i s' o').1 := congrArg Prod.fst heq
    obtain ⟨hlen, hp⟩ := hp
    have hi := (List.getElem?_eq_some_iff.1 hs).1
    refine ⟨fun j hj => ?_, fun j s₀ tc hj htc => ?_⟩
    · rw [sessions_putSession, List.length_set]
      rcases List.mem_append.1 hj with hj | hj
      · exact hlen j hj
      · simp only [startEvent, List.mem_singleton, Event.session.injEq] at hj
        omega
    · rw [sessions_putSession] at hj
      have hmem : startEvent j ∈ es ++ [.session i e'] ↔
          startEvent j ∈ es ∨ j = i ∧ e' = .tcpClient (.dataIn .start) := by
        simp [startEvent, eq_comm]
      rw [hmem]
      rcases getElem?_set_cases hj with ⟨rfl, rfl⟩ | ⟨hne, hj⟩
      · have ht := (Session.step_eq_some hstep).2
        rw [htc] at ht
        rw [eq_self, true_and, ← Session.taskEvent_eq_start (s := s)]
        generalize hk : s.task = k at ht
        generalize s.taskEvent e' = e'' at ht
        cases ht with
        | tcpClient hts =>
          simp only [Session.Event.tcpClient.injEq]
          exact (hp j s _ hs hk).step (hent j s _ hs hk).1 hts
      · simpa [hne] using hp j s₀ tc hj htc
  · have hmem : ∀ j, startEvent j ∈ es ++ [e] ↔ startEvent j ∈ es := by
      intro j
      simp only [List.mem_append, List.mem_singleton, or_iff_left_iff_imp]
      rintro rfl
      cases he
    have := h.state_preserve (P := History es) (fun ha hp => hp.act ha) hp
    simpa [History, hmem] using this

/-- What holds of an agent after any run. -/
structure Inv (es : List Event) (a : Agent) : Prop where
  tables : Tables a
  servers : Servers a
  entries : Entries a
  history : History es a

theorem Inv.step (hp : Inv es a) (h : a.step e = some (a', o)) : Inv (es ++ [e]) a' :=
  ⟨hp.tables.step h, hp.servers.step h, hp.entries.step hp.tables h, hp.history.step hp.entries h⟩

theorem Inv.init (full : Bool) (info : WSNGetInfoReply) : Inv [] (init full info) where
  tables := .init full info
  servers := .init full info
  entries _ _ _ hs := absurd (List.mem_of_getElem? hs) List.not_mem_nil
  history := ⟨fun _ hi => absurd hi List.not_mem_nil, fun _ _ _ hs => absurd (List.mem_of_getElem? hs) List.not_mem_nil⟩

theorem inv_of_run {full : Bool} {info : WSNGetInfoReply} (h : Run step (init full info) es a os) : Inv es a :=
  h.history_invariant_of (P := fun es a _ => Inv es a) (A := fun _ => True) (fun _ hp h => hp.step h)
    (fun _ _ => trivial) (.init full info)

/-! ### Ending a token -/

/-- What a token was opened for: a session or a file, by index. -/
inductive Opened
  | session (i : Nat)
  | file (k : Nat)
  deriving DecidableEq, Repr

def IsOpen (a : Agent) : Opened → Prop
  | .session i => ∃ s, a.sessions[i]? = some s ∧ s.task.isOpen = true
  | .file k => a.files[k]? = some true

/-- `x` is open under the token `t`. -/
def Live (a : Agent) (t : Bytes) : Opened → Prop
  | .session i => ∃ s, a.sessions[i]? = some s ∧ s.cmd.token = t ∧ s.task.isOpen = true
  | .file k => a.fileQueues.get? t = some k ∧ a.files[k]? = some true

/-- No other CONNECT and no other open file has the token `t`. -/
def Alone (a : Agent) (t : Bytes) : Opened → Prop
  | .session i => Sole a.sessions t i ∧ a.fileQueues.get? t = none
  | .file _ => Only a.sessions t fun _ => False

def Quiet (a : Agent) : Opened → Prop
  | .session i => ∃ s, a.sessions[i]? = some s ∧ s.task.isQuiet = true
  | .file _ => True

/-- `t` is a key of none of the tables. -/
structure Absent (a : Agent) (t : Bytes) : Prop where
  process : a.processQueues.get? t = none
  file : a.fileQueues.get? t = none
  server : a.servers.get? t = none
  serverQueue : a.serverQueues.contains t = false
  tcpConnection : a.serverTcpConnections.contains t = false

/-- `x` is closed, its token is in no table, and data for a server with the token is refused. -/
structure Ended (a : Agent) (t : Bytes) (x : Opened) : Prop where
  closed : ¬ a.IsOpen x
  absent : a.Absent t
  refused : ∀ data f c, CMD.fromBytes data = .ok (.SDSRV c) → c.token = t → a.incoming = .idle →
    ∃ a', a.step (.recv data f) =
      some (a', [.received (.SDSRV c), .sent (errReply a.full t "Server token not found" "")])

/-- When an `OK` ends what it should: `es` are the events before and after it, `f` what the file system makes
of it. -/
def EndsOnOk (a : Agent) (es : List Event) (f : FileOs) : Opened → Prop
  | .session i => (∃ s, a.sessions[i]? = some s ∧ s.cmd.kind = .tcpClient) ∧ startEvent i ∈ es
  | .file _ => f.closeRaises = false

/-- The event does not open anything under the token `t` again and does not bring another `OK` for it. -/
def LeavesAlone (t : Bytes) (e : Event) : Prop :=
  ∀ c, e.cmd? = some c → c.token = t → c.type ∉ [CMDType.CONNECT, .FILEOPEN, .OK]

theorem Absent.refused (h : a.Absent t) {data : Bytes} {f : FileOs} {c : WSNServerSocketData}
    (hc : CMD.fromBytes data = .ok (.SDSRV c)) (ht : c.token = t) (hidle : a.incoming = .idle) :
    ∃ a', a.step (.recv data f) =
      some (a', [.received (.SDSRV c), .sent (errReply a.full t "Server token not found" "")]) := by
  subst ht
  obtain ⟨h1, h2, h3, h4, h5⟩ := h
  rw [Dict.contains_eq_false_iff] at h5
  refine ⟨{ a with incoming := .sending [] none }, ?_⟩
  simp only [step, hidle, hc, if_true, processIncoming, CMD.token, h1, h2, Dict.contains, h3]
  simp [CMD.type, dispatch, serverData, h4, h5, sendAll, andThen]

theorem LeavesAlone.ne_connect (he : LeavesAlone t e) (c : WSNConnect) (hc : e.cmd? = some (.CONNECT c)) :
    c.token ≠ t :=
  fun ht => he _ hc ht (by simp [CMD.type])

theorem only_step {Q : Nat → Prop} (he : ∀ c, e.cmd? = some (.CONNECT c) → c.token ≠ t) (hp : Only a.sessions t Q)
    (h : a.step e = some (a', o)) : Only a'.sessions t Q := by
  rcases step_cases h with ⟨i, e', s, s', o', rfl, -, hs, hstep, heq⟩ | ⟨-, h⟩
  · obtain rfl : a' = (a.putSession i s' o').1 := congrArg Prod.fst heq
    exact (grows_putSession (m := none) hs hstep).only nofun hp
  · exact h.state_preserve (P := fun a => Only a.sessions t Q) (fun ha hp => (grows_of_act ha).only he hp) hp

theorem fileQueues_step (he : LeavesAlone t e) (h : a.step e = some (a', o)) :
    a'.fileQueues.get? t = a.fileQueues.get? t := by
  rcases step_cases h with ⟨i, e', s, s', o', rfl, -, hs, hstep, heq⟩ | ⟨-, h⟩
  · obtain rfl : a' = (a.putSession i s' o').1 := congrArg Prod.fst heq
    rw [fileQueues_putSession]
  · refine h.state_preserve (P := fun a₁ => a₁.fileQueues.get? t = a.fileQueues.get? t) (fun ha hp => ?_) rfl
    rw [← hp]
    cases change_of_act ha with
    | openFile hm =>
      exact Dict.get?_set_ne _ _ fun ht => he _ hm ht.symm (by simp [CMD.type])
    | delFile hm => exact Dict.get?_del_ne _ fun ht => he _ hm ht.symm (by simp [CMD.type])
    | _ => rfl

theorem closedFile_step (hp : a.files[k]? = some false) (h : a.step e = some (a', o)) : a'.files[k]? = some false := by
  refine preserved (P := fun a => a.files[k]? = some false) ?_ ?_ h hp
  · intro a i s s' e o _ _ _ hp
    rwa [files_putSession]
  · intro a a' o h hp
    have hk := (List.getElem?_eq_some_iff.1 hp).1
    cases change_of_act h with
    | openFile hm => exact (List.getElem?_append_left hk).trans hp
    | closeFile hm hq =>
      simp only [List.getElem?_set]
      split
      · simp [hk, ‹_ = k›]
      · exact hp
    | _ => exact hp

/-- The TCP client session `i` will find the `OK`, or is past reading its queue. -/
def OkSeenAt (i : Nat) (a : Agent) : Prop :=
  ∃ s tc, a.sessions[i]? = some s ∧ s.task = .tcpClient tc ∧ tc.OkSeen

theorem OkSeenAt.step (hent : Entries a) (hp : OkSeenAt i a) (h : a.step e = some (a', o)) : OkSeenAt i a' := by
  rcases step_cases h with ⟨j, e', s, s', o', rfl, -, hs, hstep, heq⟩ | ⟨-, h⟩
  · obtain rfl : a' = (a.putSession j s' o').1 := congrArg Prod.fst heq
    obtain ⟨s₀, tc, hs₀, htc, hok⟩ := hp
    rw [OkSeenAt, sessions_putSession]
    by_cases hij : j = i
    · subst hij
      cases hs.symm.trans hs₀
      have ht := (Session.step_eq_some hstep).2
      rw [htc] at ht
      generalize hk : s'.task = k' at ht
      generalize s.taskEvent e' = e'' at ht
      cases ht with
      | tcpClient hts =>
        refine ⟨s', _, ?_, hk, hok.step (hent j s tc hs htc).1 hts⟩
        rw [List.getElem?_set_self (List.getElem?_eq_some_iff.1 hs).1]
    · exact ⟨s₀, tc, by rw [List.getElem?_set_ne hij]; exact hs₀, htc, hok⟩
  · refine h.state_preserve (P := OkSeenAt i) (fun ha hp => ?_) hp
    obtain ⟨s₀, tc, hs₀, htc, hok⟩ := hp
    have hi := (List.getElem?_eq_some_iff.1 hs₀).1
    cases change_of_act ha with
    | @put c j cmd t hm hq hs =>
      by_cases hij : j = i
      · subst hij
        cases hs.symm.trans hs₀
        cases htc
        exact ⟨_, _, List.getElem?_set_self hi, rfl, hok.1,
          hok.2.imp (fun ⟨c, hm⟩ => ⟨c, List.mem_append_left _ hm⟩) id⟩
      · exact ⟨s₀, tc, (List.getElem?_set_ne hij).trans hs₀, htc, hok⟩
    | @cancel _ j s hq hs =>
      by_cases hij : j = i
      · subst hij
        cases hs.symm.trans hs₀
        exact ⟨_, tc, List.getElem?_set_self hi, by simp [cancelServer, htc], hok⟩
      · exact ⟨s₀, tc, (List.getElem?_set_ne hij).trans hs₀, htc, hok⟩
    | create hm => exact ⟨s₀, tc, (List.getElem?_append_left hi).trans hs₀, htc, hok⟩
    | _ => exact ⟨s₀, tc, hs₀, htc, hok⟩

theorem keepsKeys_step (h : a.step e = some (a', o)) : KeepsKeys a a' :=
  preserved (P := fun a₁ => KeepsKeys a a₁)
    (fun _ _ _ hp t => ⟨((keepsKeys_putSession _ _ _ _ t).1 <| (hp t).1 ·),
      ((keepsKeys_putSession _ _ _ _ t).2 <| (hp t).2 ·)⟩)
    (fun ha hp t => ⟨((keepsKeys_act ha t).1 <| (hp t).1 ·), ((keepsKeys_act ha t).2 <| (hp t).2 ·)⟩)
    h fun _ => ⟨id, id⟩

theorem keepsKeys_of_run (h : Run step a es a' os) : KeepsKeys a a' :=
  h.state_invariant (P := KeepsKeys a)
    (fun hp h t => ⟨((keepsKeys_step h t).1 <| (hp t).1 ·), ((keepsKeys_step h t).2 <| (hp t).2 ·)⟩) fun _ => ⟨id, id⟩

/-- `OK` for a TCP client session is put into its queue. -/
theorem okSeenAt_of_recv {data : Bytes} {f : FileOs} {c : WSNOK} {s : Session} {tc : TcpClient}
    (hd : CMD.fromBytes data = .ok (.OK c)) (hq : a.processQueues.get? c.token = some i) (hs : a.sessions[i]? = some s)
    (htc : s.task = .tcpClient tc) (hopen : tc.dataIn ≠ .none) (h : a.step (.recv data f) = some (a', o)) :
    OkSeenAt i a' ∧ a'.fileQueues = a.fileQueues := by
  obtain ⟨cmd, task⟩ := s
  cases htc
  simp only [step, hd, processIncoming, CMD.token, hq, hs] at h
  split at h <;> cases h
  exact ⟨⟨_, _, List.getElem?_set_self (List.getElem?_eq_some_iff.1 hs).1, rfl, hopen, .inl ⟨c, by simp⟩⟩, rfl⟩

/-- `OK` for a file closes it; the entry goes unless `close` raises. -/
theorem file_of_recv {data : Bytes} {f : FileOs} {c : WSNOK} (hd : CMD.fromBytes data = .ok (.OK c))
    (hp : a.processQueues.get? c.token = none) (hq : a.fileQueues.get? c.token = some k) (hk : a.files[k]? = some true)
    (h : a.step (.recv data f) = some (a', o)) :
    a'.files[k]? = some false ∧ a'.fileQueues.get? c.token = if f.closeRaises then some k else none := by
  have hlt := (List.getElem?_eq_some_iff.1 hk).1
  simp only [step, hd, processIncoming, CMD.token, hp, hq, CMD.type, decide_true] at h
  split at h
  · split at h <;> cases h
    · exact ⟨List.getElem?_set_self hlt, by simp [return_, *]⟩
    · exact ⟨List.getElem?_set_self hlt, by simp [return_, *]⟩
  · cases h

variable {full : Bool} {info : WSNGetInfoReply} {es₀ : List Event} {os₀ : List Output} {data : Bytes} {f : FileOs}
  {c : WSNOK} {x : Opened}

/-- The table of a session that is not a TCP client session keeps its token. -/
theorem not_absent_of_open {s : Session} (hf : Filled a s) (ht : s.cmd.token = t) (hopen : s.task.isOpen = true)
    (hk : KeepsKeys a a') (hb : s.task.branch ≠ .tcpClient) : ¬ a'.Absent t := by
  intro habs
  have hk := hk t
  rw [habs.serverQueue, habs.tcpConnection] at hk
  subst ht
  unfold Filled at hf
  cases htask : s.task <;> simp_all [SessionTask.isOpen, SessionTask.branch, TcpServer.isBound]

/-- A token whose sessions are all TCP client sessions, none of which has a queue. -/
theorem absent_of (ht : Tables a) (hno : ∀ j b, Has a.sessions j t b → b = .tcpClient)
    (hq : a.processQueues.get? t = none) (hf : a.fileQueues.get? t = none) : a.Absent t where
  process := hq
  file := hf
  server := by
    refine Option.eq_none_iff_forall_ne_some.2 fun i hi => ?_
    rcases ht.server hi with hh | hh <;> cases hno _ _ hh
  serverQueue := by
    refine Bool.eq_false_iff.2 fun hc => ?_
    obtain ⟨i, hh | hh⟩ := ht.serverQueue hc <;> cases hno _ _ hh
  tcpConnection := by
    refine Bool.eq_false_iff.2 fun hc => ?_
    obtain ⟨i, hh⟩ := ht.tcpConnection hc
    cases hno _ _ hh

theorem Ended.of_absent (hc : ¬ a.IsOpen x) (h : a.Absent t) : a.Ended t x :=
  ⟨hc, h, fun _ _ _ hd ht hidle => h.refused hd ht hidle⟩

theorem cmd?_recv {c : CMD} (hd : CMD.fromBytes data = .ok c) : (Event.recv data f).cmd? = some c := by
  simp [Event.cmd?, hd]

/-- The first step of the `OK` opens nothing. -/
theorem ne_connect_recv (hd : CMD.fromBytes data = .ok (.OK c)) (c' : WSNConnect)
    (h : (Event.recv data f).cmd? = some (.CONNECT c')) : c'.token ≠ t := by
  rw [cmd?_recv hd] at h
  cases h

theorem ended_iff_file (hinv : Inv es₀ a) (hlive : a.Live c.token (.file k)) (halone : a.Alone c.token (.file k))
    (hd : CMD.fromBytes data = .ok (.OK c)) (hrecv : a.step (.recv data f) = some (a₁, o)) (h : Run step a₁ es a' os)
    (hes : ∀ e ∈ es, LeavesAlone c.token e) (ht' : Tables a') : a'.Ended c.token (.file k) ↔ f.closeRaises = false := by
  obtain ⟨hq, hk⟩ := hlive
  have hp : a.processQueues.get? c.token = none :=
    Option.eq_none_iff_forall_ne_some.2 fun i hi => halone.of_has (hinv.tables.process hi)
  obtain ⟨hk₁, hq₁⟩ := file_of_recv hd hp hq hk hrecv
  have honly₁ := only_step (fun c' => ne_connect_recv hd c') halone hrecv
  -- neither the entry nor the file nor the absence of sessions changes until the end of the run
  obtain ⟨hk', hq', honly'⟩ := h.invariant_of
    (P := fun a _ => a.files[k]? = some false ∧ a.fileQueues.get? c.token = (if f.closeRaises then some k else none) ∧
      Only a.sessions c.token fun _ => False)
    (fun he hp hs => ⟨closedFile_step hp.1 hs, (fileQueues_step he hs).trans hp.2.1, only_step he.ne_connect hp.2.2 hs⟩)
    hes ⟨hk₁, hq₁, honly₁⟩
  constructor
  · intro hend
    have := hq'.symm.trans hend.absent.file
    by_contra hc
    simp [hc] at this
  · intro hc
    refine .of_absent (by simp [IsOpen, hk'])
      (absent_of ht' (fun j b hh => (honly'.of_has hh).elim) ?_ (by simpa [hc] using hq'))
    exact Option.eq_none_iff_forall_ne_some.2 fun i hi => honly'.of_has (ht'.process hi)

theorem kind_eq_tcpClient_iff {k : SocketKind} : k = .tcpClient ↔ k.branch = .tcpClient := by
  cases k <;> simp [SocketKind.branch]

theorem ended_iff_tcpClient {s : Session} {tc : TcpClient} (hinv : Inv es₀ a) (hs : a.sessions[i]? = some s)
    (htc : s.task = .tcpClient tc) (ht : s.cmd.token = c.token) (hopen : s.task.isOpen = true)
    (halone : a.Alone c.token (.session i)) (hd : CMD.fromBytes data = .ok (.OK c))
    (hrecv : a.step (.recv data f) = some (a₁, o)) (h : Run step a₁ es a' os) (hes : ∀ e ∈ es, LeavesAlone c.token e)
    (hquiet : a'.Quiet (.session i)) :
    a'.Ended c.token (.session i) ↔ startEvent i ∈ es₀ ++ .recv data f :: es := by
  obtain ⟨hsole, hfile⟩ := halone
  have hopen : tc.dataIn ≠ .none ∧ tc.closed = false := by simpa [htc, SessionTask.isOpen] using hopen
  have hq : a.processQueues.get? c.token = some i := by
    have := (hinv.entries i s tc hs htc).2 (by rw [ht]; exact hsole)
    simpa [ht, TcpClient.entry, hopen] using this
  obtain ⟨hseen₁, hfile₁⟩ := okSeenAt_of_recv hd hq hs htc hopen.1 hrecv
  have honly₁ := only_step (fun c' => ne_connect_recv hd c') hsole hrecv
  obtain ⟨hinv', hseen', hfile', honly'⟩ := h.history_invariant_of
    (P := fun es a _ => Inv (es₀ ++ [.recv data f] ++ es) a ∧ OkSeenAt i a ∧ a.fileQueues.get? c.token = none ∧
      Sole a.sessions c.token i)
    (fun he hp hs => ⟨by simpa using hp.1.step hs, hp.2.1.step hp.1.entries hs,
      (fileQueues_step he hs).trans hp.2.2.1, only_step he.ne_connect hp.2.2.2 hs⟩)
    hes ⟨by simpa using hinv.step hrecv, hseen₁, by rw [hfile₁]; exact hfile, honly₁⟩
  obtain ⟨s', tc', hs', htc', hdata, hok⟩ := hseen'
  obtain ⟨s'', hs'', hq'⟩ := hquiet
  cases hs'.symm.trans hs''
  -- a task that is quiet and cannot have the `OK` still before it is over
  have hdone : tc'.dataIn = .done := by
    simp only [htc', SessionTask.isQuiet, decide_eq_true_eq] at hq'
    rcases hq' with hq' | ⟨hg, hnil, -⟩
    · exact hq'
    · simp [hg, hnil] at hok
  have hstart : tc'.closed = true ↔ startEvent i ∈ es₀ ++ .recv data f :: es := by
    have := hinv'.history.2 i s' tc' hs' htc'
    rw [TcpClient.Started, hdone] at this
    simpa using this
  have hisOpen : a'.IsOpen (.session i) ↔ tc'.closed = false := by simp [IsOpen, hs', htc', SessionTask.isOpen, hdone]
  rw [← hstart]
  constructor
  · intro hend
    simpa [hisOpen] using hend.closed
  · intro hclosed
    have hno : ∀ j b, Has a'.sessions j c.token b → b = .tcpClient := by
      intro j b hh
      obtain rfl := honly'.of_has hh
      obtain ⟨s₁, hs₁, -, hb⟩ := hh
      cases hs'.symm.trans hs₁
      rw [← hb, htc']
      rfl
    refine .of_absent (by simp [hisOpen, hclosed]) (absent_of hinv'.tables hno ?_ hfile')
    refine Option.eq_none_iff_forall_ne_some.2 fun j hj => ?_
    obtain rfl := honly'.of_has (hinv'.tables.process hj)
    obtain ⟨s₁, hs₁, ht₁, -⟩ := hinv'.tables.process hj
    cases hs'.symm.trans hs₁
    have := (hinv'.entries _ s' tc' hs' htc').2 (by rw [ht₁]; exact honly')
    rw [ht₁, hj] at this
    simp [TcpClient.entry, hclosed] at this

/-- What the `OK` does to an open session or file that has the token to itself, once the tasks it wakes have
run: it ends a TCP client session whose `__socket_data_in_handle` was not cancelled before it started,
and a file whose `close` does not raise, and nothing else. -/
theorem ended_iff (h₀ : Run step (init full info) es₀ a os₀) (hlive : a.Live c.token x) (halone : a.Alone c.token x)
    (hd : CMD.fromBytes data = .ok (.OK c)) (h : Run step a (.recv data f :: es) a' os)
    (hes : ∀ e ∈ es, LeavesAlone c.token e) (hquiet : a'.Quiet x) :
    a'.Ended c.token x ↔ a.EndsOnOk (es₀ ++ .recv data f :: es) f x := by
  have hinv := inv_of_run h₀
  have hinv' := inv_of_run (h₀.append h)
  have hkeys := keepsKeys_of_run h
  cases h with
  | cons hrecv htail =>
  cases x with
  | file k => exact ended_iff_file hinv hlive halone hd hrecv htail hes hinv'.tables
  | session i =>
    obtain ⟨s, hs, ht, hopen⟩ := hlive
    have hkind := (hinv.servers.fits s (List.mem_of_getElem? hs)).1
    have hcond : (∃ s, a.sessions[i]? = some s ∧ s.cmd.kind = .tcpClient) ↔ s.task.branch = .tcpClient := by
      simp [hs, kind_eq_tcpClient_iff, hkind]
    by_cases hb : s.task.branch = .tcpClient
    · obtain ⟨tc, htc⟩ : ∃ tc, s.task = .tcpClient tc := by cases htask : s.task <;> simp_all [SessionTask.branch]
      rw [ended_iff_tcpClient hinv hs htc ht hopen halone hd hrecv htail hes hquiet]
      simp only [EndsOnOk, hcond, hb, true_and]
    · refine iff_of_false (fun hend => ?_) fun hc => hb (hcond.1 hc.1)
      exact not_absent_of_open (hinv.servers.filled s (List.mem_of_getElem? hs)) ht hopen hkeys hb hend.absent

/-! ### Two sessions -/

/-- `CONNECT` for port 53 of host `h` with the protocol `p`, the bind flag `bind` and sixteen bytes 3 for token. -/
def connectFrame (p : String) (bind : UInt8) : Bytes :=
  [0, 0, 0, 35, 0, 5] ++ List.replicate 16 3 ++ utf8Encode p ++ [bind, 255, 0, 0, 0, 1, 104, 0, 53, 1]

def okFrame : Bytes := [0, 0, 0, 26, 0, 0] ++ List.replicate 16 3 ++ [0, 0, 0, 0]

/-- One byte for the connection of zeros. -/
def dataFrame : Bytes :=
  [0, 0, 0, 46, 0, 200] ++ List.replicate 16 3 ++ List.replicate 16 0 ++ [255, 0, 0, 0, 0, 0, 0, 1]

def noCalls : Os := { raises := fun _ => none }

def someInfo : WSNGetInfoReply := ⟨[], 1, "", "", "", "", "", "", "", ""⟩

def tcpOpening : List Event :=
  [.recv (connectFrame "TCP" 0) {}, .session 0 (.opening noCalls), .session 0 (.tcpClient (.main .sent)), startEvent 0]

def tcpEnding : List Event := [.session 0 (.tcpClient (.dataIn .got))]

theorem ended_iff_tcpOpening : ∃ a os₀ a' os, Run step (init true someInfo) tcpOpening a os₀ ∧
    Run step a (.recv okFrame {} :: tcpEnding) a' os ∧
      (a'.Ended (List.replicate 16 3) (.session 0) ↔
        a.EndsOnOk (tcpOpening ++ .recv okFrame {} :: tcpEnding) {} (.session 0)) :=
  have h₀ : Run step (init true someInfo) tcpOpening _ _ := .of_exec rfl
  have h : Run step _ (.recv okFrame {} :: tcpEnding) _ _ := .of_exec rfl
  ⟨_, _, _, _, h₀, h, ended_iff (c := { token := List.replicate 16 3 }) h₀ ⟨_, rfl, rfl, rfl⟩
    ⟨fun j _ hj _ => (match j, hj with
      | 0, _ => rfl
      | _ + 1, hj => (by cases hj)), rfl⟩
    rfl h (fun e he c hc => by rw [List.mem_singleton.1 he] at hc; cases hc) ⟨_, rfl, rfl⟩⟩

def udpOpening : List Event :=
  [.recv (connectFrame "UDP" 0) {}, .session 0 (.opening noCalls), .session 0 (.udpClient .sent),
  .session 0 (.udpClient .writerStart)]

/-- A UDP session is not ended by its `OK`, and data for it is taken and put into a queue. -/
theorem not_ended_udpOpening : ∃ a os₀ a' os, Run step (init true someInfo) udpOpening a os₀ ∧
    a.Live (List.replicate 16 3) (.session 0) ∧ Run step a [.recv okFrame {}] a' os ∧ a'.Quiet (.session 0) ∧
      ¬ a'.Ended (List.replicate 16 3) (.session 0) ∧
        (a'.step (.recv dataFrame {})).map Prod.snd =
          some [.received (.SDSRV ⟨List.replicate 16 3, List.replicate 16 0, [1], "", 0⟩), .returned true] :=
  ⟨_, _, _, _, .of_exec rfl, ⟨_, rfl, rfl, rfl⟩, .of_exec rfl, ⟨_, rfl, rfl⟩, fun h =>
    absurd h.absent.serverQueue (by decide), rfl⟩

end Agent

end Wsnet
