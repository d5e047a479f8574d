import Wsnet.Agent.Tables

/-!
# The entries of a session

How far a session is determines its entries. A TCP client session that has its token to itself has its
queue in `__process_queues` from the opening of the socket until `__socket_data_in_handle` is over
(`Entries`). The other sessions make their entries when they open and nothing removes them
(`Filled`).
-/

namespace Wsnet

namespace TcpClient
variable {s s' : TcpClient} {e : Event} {o : List Effect}

/-- What holds between the two tasks. -/
structure Wf (s : TcpClient) : Prop where
  opening : s.main = .opening → s.dataIn = .none
  cancelled : s.cancelled = true → s.dataIn ≠ .none ∧ s.dataIn ≠ .done
  closed : s.closed = true → s.dataIn = .done

theorem Wf.step (hp : s.Wf) (h : s.step e = some (s', o)) : s'.Wf := by
  obtain ⟨ho, hc, hcl⟩ := hp
  cases e with
  | put c => cases h; exact ⟨ho, hc, hcl⟩
  | main e =>
    cases mainStep_of_step h with
    | opened hm => exact ⟨by simp, fun _ => ⟨by simp, by simp⟩, fun h => by simp_all⟩
    | sentLast hm | sendFailedLast exc hm =>
      refine ⟨by simp [finish], fun h => ?_, hcl⟩
      simp only [finish, Bool.or_eq_true, decide_eq_true_eq] at h
      exact h.elim hc id
    | _ => exact ⟨by simp [fail], hc, hcl⟩
  | dataIn e =>
    cases dataInStep_of_step h with
    | gotOther c inQ h1 h2 => exact ⟨ho, hc, hcl⟩
    | writeFailed exc h1 h2 => rcases h2 with ⟨d, h2⟩ | h2 <;> constructor <;> simp_all
    | _ => constructor <;> simp_all [finishDataIn]

/-- The entry of session `i` in `__process_queues`. -/
def entry (s : TcpClient) (i : Nat) : Option Nat := if s.dataIn = .none ∨ s.closed then none else some i

theorem entry_step {i : Nat} (hp : s.Wf) (h : s.step e = some (s', o)) :
    o.foldl (Agent.processEntry i) (s.entry i) = s'.entry i := by
  obtain ⟨ho, hc, hcl⟩ := hp
  cases e with
  | put c => cases h; rfl
  | main e =>
    cases mainStep_of_step h with
    | opened hm => simp_all [Agent.processEntry, entry]
    | _ => rfl
  | dataIn e =>
    cases dataInStep_of_step h with
    | writeFailed exc h1 h2 => rcases h2 with ⟨d, h2⟩ | h2 <;> simp_all [Agent.processEntry, entry]
    | _ => simp_all [Agent.processEntry, entry, finishDataIn]

end TcpClient

namespace UdpClient

theorem filled_step {s s' : UdpClient} {e : Event} {o : List Effect} (h : s.step e = some (s', o))
    (hw : s'.writer ≠ .none) : s.writer ≠ .none ∨ ∃ ct, .setServerQueue ct ∈ o := by
  revert h hw
  fun_cases step s e <;> rintro ⟨⟩ hw <;> simp_all

end UdpClient

namespace UdpServer

@[simp] theorem terminate_run (s : UdpServer) : s.terminate.run = s.run := by unfold terminate; split <;> rfl

theorem filled_step {s s' : UdpServer} {e : Event} {o : List Effect} (h : s.step e = some (s', o))
    (hr : s'.run ≠ .none) : s.run ≠ .none ∨ ∃ ct, .setServerQueue ct ∈ o := by
  revert h hr
  fun_cases step s e <;> rintro ⟨⟩ hr <;> simp_all

end UdpServer

namespace TcpServer

/-- What holds between `socket_connect` and `serve_forever`. -/
structure Wf (s : TcpServer) : Prop where
  listening : s.listening = true → ¬ s.Pending
  serve : s.serve ≠ .none → s.main = .done

theorem Wf.step {s s' : TcpServer} {e : Event} {o : List Effect} (hp : s.Wf) (h : s.step e = some (s', o)) : s'.Wf := by
  obtain ⟨h1, h2⟩ := hp
  revert h
  fun_cases TcpServer.step s e <;> rintro ⟨⟩ <;> constructor <;> simp_all [Pending]

/-- Between the reset of its table and the end of the listening. -/
def isBound (s : TcpServer) : Bool := s.main = .opening ∨ s.listening

theorem filled_step {s s' : TcpServer} {e : Event} {o : List Effect} (h : s.step e = some (s', o))
    (hb : s'.isBound = true) : s.isBound = true ∨ .resetTcpConnections ∈ o := by
  revert h hb
  fun_cases step s e <;> rintro ⟨⟩ hb <;> simp_all [isBound]

end TcpServer

namespace Agent
variable {m : Option CMD} {a a' : Agent} {e : Event} {o : List Output} {i j : Nat} {t : Bytes}
  {s s' s₀ : Session} {ss ss' : List Session}

theorem getElem?_set_cases {α : Type} {l : List α} {x y : α} (h : (l.set i x)[j]? = some y) :
    j = i ∧ y = x ∨ j ≠ i ∧ l[j]? = some y := by
  rw [List.getElem?_set] at h
  split at h
  · split at h
    · exact .inl ⟨by omega, by simpa using h.symm⟩
    · cases h
  · exact .inr ⟨by omega, h⟩

/-- The sessions with the token `t` are among `Q`. -/
def Only (ss : List Session) (t : Bytes) (Q : Nat → Prop) : Prop := ∀ j s, ss[j]? = some s → s.cmd.token = t → Q j

/-- No session but `i` has the token `t`. -/
abbrev Sole (ss : List Session) (t : Bytes) (i : Nat) : Prop := Only ss t (· = i)

theorem Only.of_has {Q : Nat → Prop} {b : Branch} (h : Only ss t Q) (hh : Has ss j t b) : Q j := by
  obtain ⟨s, hj, ht, -⟩ := hh
  exact h j s hj ht

theorem Grows.sole (h : Grows m ss ss') (hs : Sole ss' t i) : Sole ss t i :=
  fun _ s hj ht => hs.of_has (h.has (b := s.task.branch) ⟨s, hj, ht, rfl⟩)

theorem Grows.only {Q : Nat → Prop} (h : Grows m ss ss') (hm : ∀ c, m = some (.CONNECT c) → c.token ≠ t)
    (hs : Only ss t Q) :
    Only ss' t Q := by
  intro j s hj ht
  rcases h.has_of (b := s.task.branch) ⟨s, hj, ht, rfl⟩ with hh | ⟨c, hc, ht'⟩
  · exact hs.of_has hh
  · exact absurd ht' (hm c hc)

theorem tcpClient_cancelServer {tc : TcpClient} (h : (cancelServer s).task = .tcpClient tc) :
    s.task = .tcpClient tc := by
  unfold cancelServer at h
  split at h <;> simp_all

theorem tcpClient_create {full : Bool} {c : WSNConnect} {tc : TcpClient}
    (h : (Session.create full c).task = .tcpClient tc) :
    tc.Wf ∧ tc.dataIn = .none := by
  unfold Session.create at h
  cases hk : c.kind <;> simp only [hk] at h <;> cases h
  exact ⟨⟨fun _ => rfl, nofun, nofun⟩, rfl⟩

/-- The queues of the TCP client sessions are in the table as long as they are used. -/
def Entries (a : Agent) : Prop :=
  ∀ i s tc, a.sessions[i]? = some s → s.task = .tcpClient tc → tc.Wf ∧
    (Sole a.sessions s.cmd.token i → a.processQueues.get? s.cmd.token = tc.entry i)

theorem Entries.session (hp : Entries a) (hs : a.sessions[i]? = some s) {e : Session.Event} {o : List Effect}
    (h : s.step e = some (s', o)) : Entries (a.putSession i s' o).1 := by
  intro j s₀ tc hj htc
  have hg : Grows none a.sessions (a.putSession i s' o).1.sessions := grows_putSession hs h
  have hcmd := (Session.step_eq_some h).1
  rw [sessions_putSession] at hj
  rw [processQueues_putSession]
  rcases getElem?_set_cases hj with ⟨rfl, rfl⟩ | ⟨hne, hj⟩
  · have ht := (Session.step_eq_some h).2
    rw [htc] at ht
    generalize hk : s.task = k at ht
    generalize s.taskEvent e = e' at ht
    cases ht with
    | tcpClient hstep =>
      obtain ⟨hwf, hent⟩ := hp j s _ hs hk
      refine ⟨hwf.step hstep, fun hsole => ?_⟩
      rw [if_pos rfl, hcmd, hent (by rw [← hcmd]; exact hg.sole hsole)]
      exact TcpClient.entry_step hwf hstep
  · obtain ⟨hwf, hent⟩ := hp j s₀ tc hj htc
    refine ⟨hwf, fun hsole => ?_⟩
    rw [if_neg, hent (hg.sole hsole)]
    -- another session with the token would not leave it to `j`
    intro heq
    exact hne ((hg.sole hsole) i s hs (by rw [heq, hcmd])).symm

theorem Entries.act (ht : Tables a) (hp : Entries a) (h : Act e a a' o) : Entries a' := by
  have hg := grows_of_act h
  intro j s₀ tc hj htc
  cases change_of_act h with
  | put hm hq hs =>
    rcases getElem?_set_cases hj with ⟨rfl, rfl⟩ | ⟨hne, hj⟩
    · cases htc
      obtain ⟨⟨h1, h2, h3⟩, hent⟩ := hp j _ _ hs rfl
      exact ⟨⟨h1, h2, h3⟩, fun hsole => hent (hg.sole hsole)⟩
    · obtain ⟨hwf, hent⟩ := hp j s₀ tc hj htc
      exact ⟨hwf, fun hsole => hent (hg.sole hsole)⟩
  | cancel hq hs =>
    rcases getElem?_set_cases hj with ⟨rfl, rfl⟩ | ⟨hne, hj⟩
    · rw [cmd_cancelServer]
      obtain ⟨hwf, hent⟩ := hp j _ tc hs (tcpClient_cancelServer htc)
      exact ⟨hwf, fun hsole => hent (hg.sole hsole)⟩
    · obtain ⟨hwf, hent⟩ := hp j s₀ tc hj htc
      exact ⟨hwf, fun hsole => hent (hg.sole hsole)⟩
  | create hm =>
    rw [List.getElem?_append] at hj
    split at hj
    · obtain ⟨hwf, hent⟩ := hp j s₀ tc hj htc
      exact ⟨hwf, fun hsole => hent (hg.sole hsole)⟩
    · obtain ⟨hlt, rfl⟩ := List.getElem?_eq_some_iff.1 hj
      simp only [List.getElem_singleton] at htc ⊢
      obtain ⟨hwf, hdata⟩ := tcpClient_create htc
      refine ⟨hwf, fun hsole => ?_⟩
      -- an entry would be that of an older session with the token
      cases hq : a.processQueues.get? _ with
      | none => simp [TcpClient.entry, hdata]
      | some i =>
        obtain ⟨s, hs, ht', hb⟩ := ht.process hq
        have hi := (hg.sole hsole) i s hs ht'
        have := (List.getElem?_eq_some_iff.1 hs).1
        omega
  | _ => exact hp j s₀ tc hj htc

theorem Entries.step (ht : Tables a) (hp : Entries a) (h : a.step e = some (a', o)) : Entries a' :=
  (preserved (P := fun a => Tables a ∧ Entries a) (fun hs _ h hp => ⟨hp.1.session hs h, hp.2.session hs h⟩)
    (fun h hp => ⟨hp.1.act h, hp.2.act hp.1 h⟩) h ⟨ht, hp⟩).2

/-! ### Entries that stay -/

/-- The tables that no task of its own empties hold the token of a session that is open. -/
def Filled (a : Agent) (s : Session) : Prop :=
  match s.task with
  | .udpClient u => u.writer ≠ .none → a.serverQueues.contains s.cmd.token
  | .udpServer u => u.run ≠ .none → a.serverQueues.contains s.cmd.token
  | .tcpServer t => t.isBound = true → a.serverTcpConnections.contains s.cmd.token
  | _ => True

/-- `server_queues` and `server_tcp_connections` have not lost a key. -/
def KeepsKeys (a a' : Agent) : Prop :=
  ∀ t, (a.serverQueues.contains t → a'.serverQueues.contains t) ∧
    (a.serverTcpConnections.contains t → a'.serverTcpConnections.contains t)

theorem keepsKeys_act (h : Act e a a' o) : KeepsKeys a a' := by
  intro t
  cases change_of_act h with
  | conns _ _ _ _ ht => exact ⟨id, fun h => by rwa [ht]⟩
  | _ => exact ⟨id, id⟩

theorem keepsKeys_putSession (a : Agent) (i : Nat) (s : Session) (o : List Effect) :
    KeepsKeys a (a.putSession i s o).1 :=
  fun _ => ⟨fun h => serverQueues_putSession.2 (.inl h), fun h => contains_serverTcpConnections_putSession.2 (.inl h)⟩

theorem KeepsKeys.filled (h : KeepsKeys a a') (hp : Filled a s) : Filled a' s := by
  unfold Filled at *
  split <;> simp_all
  exacts [fun hw => (h _).1 (hp hw), fun hw => (h _).1 (hp hw), fun hw => (h _).2 (hp hw)]

theorem filled_session (hp : Filled a s) {e : Session.Event} {o : List Effect} (h : s.step e = some (s', o)) :
    Filled (a.putSession i s' o).1 s' := by
  obtain ⟨hcmd, ht⟩ := Session.step_eq_some h
  have hk := keepsKeys_putSession a i s' o
  unfold Filled at *
  generalize s.task = k at hp ht
  generalize hk' : s'.task = k' at ht
  generalize s.taskEvent e = e' at ht
  cases ht with
  | tcpClient | nothing => trivial
  | udpClient hs =>
    intro hw
    rcases UdpClient.filled_step hs hw with hw | hmem
    · rw [hcmd]; exact (hk _).1 (hp hw)
    · exact serverQueues_putSession.2 (.inr ⟨rfl, hmem⟩)
  | udpServer hs =>
    intro hr
    rcases UdpServer.filled_step hs hr with hr | hmem
    · rw [hcmd]; exact (hk _).1 (hp hr)
    · exact serverQueues_putSession.2 (.inr ⟨rfl, hmem⟩)
  | tcpServer hs =>
    intro hb
    rcases TcpServer.filled_step hs hb with hb | hmem
    · rw [hcmd]; exact (hk _).2 (hp hb)
    · exact contains_serverTcpConnections_putSession.2 (.inr ⟨rfl, hmem⟩)

theorem filled_create (a : Agent) (full : Bool) (c : WSNConnect) : Filled a (Session.create full c) := by
  unfold Session.create Filled
  cases c.kind <;> simp [TcpServer.isBound]

theorem filled_cancelServer (hp : Filled a s) : Filled a (cancelServer s) := by
  unfold cancelServer
  split <;> simp_all [Filled, TcpServer.isBound]

/-- What holds of all sessions. -/
structure Servers (a : Agent) : Prop where
  fits : ∀ s ∈ a.sessions, s.Fits
  wf : ∀ s ∈ a.sessions, ∀ ts, s.task = .tcpServer ts → ts.Wf
  filled : ∀ s ∈ a.sessions, Filled a s

theorem Servers.act (hp : Servers a) (h : Act e a a' o) : Servers a' where
  fits := forall_sessions_act (fun _ => id) (fun hp => by simpa [Session.Fits] using hp) Session.fits_create h hp.fits
  wf := by
    refine forall_sessions_act (fun _ _ => nofun) (fun {s} hp ts htask => ?_) (fun full c ts htask => ?_) h hp.wf
    · unfold cancelServer at htask
      split at htask
      · rename_i heq
        cases htask
        exact ⟨(hp _ heq).listening, (hp _ heq).serve⟩
      · cases htask
      · exact hp ts htask
    · unfold Session.create at htask
      cases hk : c.kind <;> simp only [hk] at htask <;> cases htask <;> exact ⟨nofun, fun h => absurd rfl h⟩
  filled s hs := (keepsKeys_act h).filled <|
    forall_sessions_act (Q := Filled a) (fun _ _ => trivial) filled_cancelServer (filled_create a) h hp.filled s hs

theorem Servers.session (hp : Servers a) (hs : a.sessions[i]? = some s) {e : Session.Event} {o : List Effect}
    (h : s.step e = some (s', o)) : Servers (a.putSession i s' o).1 where
  fits := forall_sessions_putSession ((hp.fits s (List.mem_of_getElem? hs)).step h) hp.fits
  wf := by
    refine forall_sessions_putSession (fun ts htask => ?_) hp.wf
    have ht := (Session.step_eq_some h).2
    rw [htask] at ht
    generalize hk : s.task = k at ht
    generalize s.taskEvent e = e' at ht
    cases ht with
    | tcpServer hts => exact (hp.wf s (List.mem_of_getElem? hs) _ hk).step hts
  filled := by
    intro s₀ hmem
    rw [sessions_putSession] at hmem
    rcases List.mem_or_eq_of_mem_set hmem with hmem | rfl
    · exact (keepsKeys_putSession a i s' o).filled (hp.filled s₀ hmem)
    · exact filled_session (hp.filled s (List.mem_of_getElem? hs)) h

theorem Servers.step (hp : Servers a) (h : a.step e = some (a', o)) : Servers a' :=
  preserved (fun hs _ h hp => hp.session hs h) (fun h hp => hp.act h) h hp

theorem Servers.init (full : Bool) (info : WSNGetInfoReply) : Servers (init full info) :=
  ⟨fun _ h => absurd h List.not_mem_nil, fun _ h => absurd h List.not_mem_nil, fun _ h => absurd h List.not_mem_nil⟩

end Agent

end Wsnet
