import Wsnet.Agent.Agent

/-!
# What a step of the agent can do

A step is either a step of one session, or a chain of acts (`Act`), each of which changes one thing: a
command put into a queue, a session created, a server cancelled, a file opened or closed, a step of
one connection. Invariants of the tables are checked for the sessions and for each act, and never for
the functions of the agent.
-/

namespace Wsnet.Agent

/-- The command a message decodes to. -/
def Event.cmd? : Event → Option CMD
  | .recv data _ =>
    match CMD.fromBytes data with
    | .ok c => some c
    | .error _ => none
  | _ => none

/-- A call of `transport.send` raises. -/
def Event.isSendFailed : Event → Bool
  | .sendFailed _ | .resolveFailed _ _ | .conn _ .sendFailed => true
  | .session _ e => e.isSendFailed
  | _ => false

/-- A step of a session. -/
def Event.isSession : Event → Bool
  | .session _ _ => true
  | _ => false

/-- Outputs that belong to no session and no connection. -/
def Output.isOwn : Output → Bool
  | .session _ _ | .conn _ _ => false
  | _ => true

/-- The connection `j` is in the table. -/
def HasEntry (a : Agent) (j : Nat) : Prop :=
  ∃ t table ct, a.serverTcpConnections.get? t = some table ∧ table.get? ct = some j

/-- One change in the step that `x` takes. -/
inductive Act (x : Event) (a : Agent) : Agent → List Output → Prop
  | put {c : CMD} {i : Nat} {cmd : WSNConnect} {t : TcpClient} (hm : x.cmd? = some c)
    (hq : a.processQueues.get? c.token = some i) (hs : a.sessions[i]? = some ⟨cmd, .tcpClient t⟩) :
    Act x a { a with sessions := a.sessions.set i ⟨cmd, .tcpClient { t with inQ := t.inQ ++ [c] }⟩ } []
  | create {c : WSNConnect} (hm : x.cmd? = some (.CONNECT c)) :
    Act x a { a with sessions := a.sessions ++ [Session.create a.full c] } []
  | cancel {token : Bytes} {i : Nat} {s : Session} (hq : a.servers.get? token = some i)
    (hs : a.sessions[i]? = some s) :
    Act x a { a with sessions := a.sessions.set i (cancelServer s), servers := a.servers.del token } []
  | openFile {c : WSNFileOpen} (hm : x.cmd? = some (.FILEOPEN c)) :
    Act x a { a with files := a.files ++ [true], fileQueues := a.fileQueues.set c.token a.files.length } []
  | closeFile {c : WSNOK} {k : Nat} (hm : x.cmd? = some (.OK c)) (hq : a.fileQueues.get? c.token = some k) :
    Act x a { a with files := a.files.set k false } []
  | delFile {c : WSNOK} (hm : x.cmd? = some (.OK c)) : Act x a { a with fileQueues := a.fileQueues.del c.token } []
  | accept {i : Nat} {cmd : WSNConnect} {t : TcpServer} (hs : a.sessions[i]? = some ⟨cmd, .tcpServer t⟩)
    (hl : t.listening = true) (peername : Peername) (hx : x = .accept i peername) :
    Act x a { a with conns := a.conns ++ [{ token := t.token, peername }] } []
  | start {j : Nat} {c c' : TCPServerConnection} {o : List TCPServerConnection.Effect} (hc : a.conns[j]? = some c)
    (hx : x = .conn j (.start (connectionId a.connId))) (h : c.step (.start (connectionId a.connId)) = some (c', o)) :
    Act x a ({ a with connId := a.connId + 1 }.putConn j c' o).1 (a.putConn j c' o).2
  | conn {j : Nat} {c c' : TCPServerConnection} {o : List TCPServerConnection.Effect} (hc : a.conns[j]? = some c)
    {e : TCPServerConnection.Event} (hx : x = .conn j e) (he : ∀ ct, e ≠ .start ct) (h : c.step e = some (c', o)) :
    Act x a (a.putConn j c' o).1 (a.putConn j c' o).2
  /-- `process_incoming` calls `handle_write` -/
  | drain {j : Nat} (hj : a.HasEntry j) (ha : a.incoming.stops? = none) (data : Bytes) :
    Act x a { a with incoming := .draining j data } [.wrote j data]
  /-- `process_incoming` calls `stop` -/
  | beginStop {j : Nat} {c : TCPServerConnection} (hc : a.conns[j]? = some c)
    (hj : a.HasEntry j ∨ ∃ data, a.incoming = .draining j data) (ha : a.incoming.stops? = none)
    {incoming : Incoming} (hd : ∀ k data, incoming ≠ .draining k data)
    (hi : incoming.stops? = if c.disconnected then none else some j) :
    Act x a { (a.putConn j c.beginStop.1 c.beginStop.2).1 with incoming } (a.putConn j c.beginStop.1 c.beginStop.2).2
  /-- the send of this `stop` is over -/
  | endStop {j : Nat} {c : TCPServerConnection} (hc : a.conns[j]? = some c) (ha : a.incoming.stops? = some j)
      {sent : Bool}
    (hx : x.isSendFailed = !sent) :
    Act x a ({ a with incoming := .idle }.putConn j (c.endStop sent).1 (c.endStop sent).2).1
      (a.putConn j (c.endStop sent).1 (c.endStop sent).2).2
  | other (incoming : Incoming) (hi : incoming.stops? = a.incoming.stops?)
    (hd : ∀ j data, incoming = .draining j data → a.incoming = .draining j data) (resolving : List (Bytes × TaskState))
    {o : List Output} (ho : ∀ x ∈ o, x.isOwn = true) : Act x a { a with incoming, resolving } o

/-- Acts one after another. -/
inductive Acts (x : Event) : Agent → Agent → List Output → Prop
  | nil (a : Agent) : Acts x a a []
  | cons {a a₁ a' : Agent} {o os : List Output} : Act x a a₁ o → Acts x a₁ a' os → Acts x a a' (o ++ os)

namespace Acts
variable {x : Event} {a a₁ a' : Agent} {o os : List Output}

theorem single (h : Act x a a' o) : Acts x a a' o := by
  simpa using Acts.cons h (.nil a')

theorem trans (h : Acts x a a₁ o) (h' : Acts x a₁ a' os) : Acts x a a' (o ++ os) := by
  induction h with
  | nil => exact h'
  | cons hs _ ih => rw [List.append_assoc]; exact .cons hs (ih h')

/-- An act without outputs in front. -/
theorem silent (h : Act x a a₁ []) (h' : Acts x a₁ a' os) : Acts x a a' os := .cons h h'

theorem state_preserve {P : Agent → Prop} (h : Acts x a a' o) (hact : ∀ {a a' o}, Act x a a' o → P a → P a')
    (hp : P a) :
    P a' := by
  induction h with
  | nil => exact hp
  | cons hs _ ih => exact ih (hact hs hp)

end Acts

/-- The acts that lead to the result `r`. -/
abbrev Does (x : Event) (a : Agent) (r : Agent × List Output) : Prop := Acts x a r.1 r.2

variable {x : Event} {a : Agent} {c : CMD} {f : FileOs}

theorem Does.andThen {o : List Output} {a₁ : Agent} {r : Agent × List Output} (h : Acts x a a₁ o) (hr : Does x a₁ r) :
    Does x a (andThen o r) := h.trans hr

theorem does_return (ha : a.incoming.stops? = none) (ok : Bool) : Does x a (a.return_ ok) :=
  .single (.other .idle ha.symm nofun a.resolving (o := [.returned ok]) (by simp [Output.isOwn]))

theorem does_sendAll (ha : a.incoming.stops? = none) (cs : List CMD) (onFail : Option OnFail) :
    Does x a (a.sendAll cs onFail) := by
  cases cs with
  | nil => exact does_return ha true
  | cons c rest =>
    exact .single (.other (.sending rest onFail) ha.symm nofun a.resolving (o := [.sent c]) (by simp [Output.isOwn]))

theorem does_closeServer (ha : a.incoming.stops? = none) (token : Bytes) : Does x a (a.closeServer token) := by
  fun_cases closeServer a token
  · exact does_return ha false
  · exact does_return ha false
  · exact .silent (.cancel ‹_› ‹_›) (does_return (by exact ha) true)

/-- A `stop` of a connection that is stopped already. -/
theorem putConn_beginStop {j : Nat} {c : TCPServerConnection} (h : c.disconnected = true) :
    a.putConn j c.beginStop.1 c.beginStop.2 = ({ a with conns := a.conns.set j { c with closed := true } }, []) := by
  simp [putConn, TCPServerConnection.beginStop, h]

theorem does_beginStop {j : Nat} {c : TCPServerConnection} (ha : a.incoming.stops? = none) (hc : a.conns[j]? = some c)
    (hj : a.HasEntry j ∨ ∃ data, a.incoming = .draining j data) (hd : c.disconnected = true) :
    Act x a { (a.putConn j c.beginStop.1 c.beginStop.2).1 with incoming := .idle } [] := by
  have h : Act x a { (a.putConn j c.beginStop.1 c.beginStop.2).1 with incoming := .idle }
      (a.putConn j c.beginStop.1 c.beginStop.2).2 := .beginStop hc hj ha nofun (by simp [hd, Incoming.stops?])
  rwa [putConn_beginStop hd] at h ⊢

theorem does_closeLoop (ha : a.incoming.stops? = none) (token : Bytes) (rest : List Bytes) :
    Does x a (a.closeLoop token rest) := by
  fun_induction closeLoop a token rest with
  | case1 => exact does_closeServer ha token
  | case2 | case3 | case4 => exact does_return ha false
  | case5 a ct rest t ht j hj c hc hd ih =>
    exact .silent (does_beginStop ha hc (.inl ⟨_, _, _, ht, hj⟩) hd) (ih (by simp [Incoming.stops?]))
  | case6 a ct rest t ht j hj c hc hd r =>
    exact .single (.beginStop hc (.inl ⟨_, _, _, ht, hj⟩) ha nofun (by simp [Incoming.stops?, hd]))

theorem does_stopConn {j : Nat} {c : TCPServerConnection} {data : Bytes} (ha : a.incoming = .draining j data)
    (hc : a.conns[j]? = some c) : Does x a (a.stopConn j c) := by
  have hs : a.incoming.stops? = none := by rw [ha]; rfl
  fun_cases stopConn a j c
  · refine .silent (does_beginStop hs hc (.inr ⟨data, ha⟩) ‹_›) ?_
    exact .single (.other .idle rfl nofun _ (o := [.returned true]) (by simp [Output.isOwn]))
  · exact .single (.beginStop hc (.inr ⟨data, ha⟩) hs nofun (by simp [Incoming.stops?, *]))

theorem does_fileOpen {c : WSNFileOpen} (ha : a.incoming.stops? = none) (hm : x.cmd? = some (.FILEOPEN c)) :
    Does x a (a.fileOpen c f) := by
  fun_cases fileOpen a c f
  · exact does_sendAll ha _ _
  · exact .silent (.openFile hm) (does_sendAll (by exact ha) _ _)
  · exact does_sendAll ha _ _

theorem does_serverData (ha : a.incoming.stops? = none) (c : WSNServerSocketData) : Does x a (a.serverData c) := by
  fun_cases serverData a c
  · exact .single (.drain ⟨_, _, _, ‹_›, ‹_›⟩ ha c.data)
  · exact does_sendAll ha _ _
  · exact does_return ha true
  · exact does_sendAll ha _ _

theorem does_dispatch (ha : a.incoming.stops? = none) (hm : x.cmd? = some c) : Does x a (a.dispatch c f) := by
  fun_cases dispatch a c f
  · exact does_serverData ha _
  · exact .silent (.other a.incoming rfl (fun _ _ => id) _ (by simp)) (does_return (by exact ha) true)
  · exact .silent (.create hm) (does_return (by exact ha) true)
  · exact does_sendAll ha _ _
  · exact does_sendAll ha _ _
  · exact does_fileOpen ha hm
  · exact does_sendAll ha _ _
  · exact does_return ha true

theorem does_processIncoming (ha : a.incoming.stops? = none) (hm : x.cmd? = some c) :
    Does x a (a.processIncoming c f) := by
  fun_cases processIncoming a c f
  · exact .silent (.put hm ‹_› ‹_›) (does_return (by exact ha) true)
  · exact does_return ha true
  · obtain ⟨c, rfl⟩ := CMD.eq_OK_of_type (of_decide_eq_true ‹_›)
    exact .silent (.closeFile hm ‹_›) (does_return (by exact ha) false)
  · obtain ⟨c, rfl⟩ := CMD.eq_OK_of_type (of_decide_eq_true ‹_›)
    exact .silent (.closeFile hm ‹_›) (.silent (.delFile hm) (does_return (by exact ha) true))
  · exact does_closeLoop ha _ _
  · exact does_closeServer ha _
  · exact does_dispatch ha hm

@[simp] theorem incoming_putConn (j : Nat) (c : TCPServerConnection) (os : List TCPServerConnection.Effect) :
    (a.putConn j c os).1.incoming = a.incoming := by
  suffices h : ∀ a : Agent, (os.foldl (applyConnEffect c j) a).incoming = a.incoming from
    h { a with conns := a.conns.set j c }
  induction os with
  | nil => exact fun _ => rfl
  | cons e os ih =>
    intro a
    rw [List.foldl_cons, ih]
    cases e <;> simp only [applyConnEffect] <;> split <;> rfl

theorem does_stopDone {j : Nat} {sent : Bool} {k : Agent → Agent × List Output} {r : Agent × List Output}
    (hx : x.isSendFailed = !sent) (ha : a.incoming.stops? = some j)
    (hk : ∀ a : Agent, a.incoming.stops? = none → Does x a (k a))
    (h : a.stopDone j sent k = some r) : Does x a r := by
  unfold stopDone at h
  split at h <;> cases h
  exact .andThen (.single (.endStop ‹_› ha hx)) (hk _ (by simp [Incoming.stops?]))

theorem does_stepIncoming {r : Agent × List Output} (h : a.stepIncoming x = some r) : Does x a r := by
  revert h
  fun_cases stepIncoming a x <;> intro h
  all_goals try cases h
  all_goals have hi : a.incoming = _ := ‹_›
  · exact does_sendAll (by rw [hi]; rfl) _ _
  · exact does_stopDone rfl (by rw [hi]; rfl) (fun a ha => does_closeLoop ha _ _) h
  · exact does_stopDone rfl (by rw [hi]; rfl) (fun a ha => does_return ha true) h
  · exact does_sendAll (by rw [hi]; rfl) _ _
  · exact does_return (by rw [hi]; rfl) false
  · exact does_stopDone rfl (by rw [hi]; rfl) (fun a ha => does_closeLoop ha _ _) h
  · exact does_stopDone rfl (by rw [hi]; rfl) (fun a ha => does_return ha true) h
  · exact does_stopConn hi ‹_›
  · exact does_return (by rw [hi]; rfl) true
  · exact does_stopConn hi ‹_›

/-- A step is a step of one session, or acts. -/
theorem step_cases {a' : Agent} {e : Event} {o : List Output} (h : a.step e = some (a', o)) :
    (∃ i e' s s' o', e = .session i e' ∧ e'.isPut = false ∧ a.sessions[i]? = some s ∧
        s.step e' = some (s', o') ∧ (a', o) = a.putSession i s' o') ∨
      (e.isSession = false ∧ Acts e a a' o) := by
  cases e with
  | session i e' =>
    simp only [step] at h
    split at h
    · cases h
    rename_i hp
    split at h
    · obtain ⟨r, hr, heq⟩ := Option.map_eq_some_iff.1 h
      exact .inl ⟨i, e', _, r.1, r.2, rfl, by simpa using hp, ‹_›, hr, heq.symm⟩
    · cases h
  | recv data f =>
    refine .inr ⟨rfl, ?_⟩
    simp only [step] at h
    split at h
    · split at h <;> cases h
      · rename_i c hc
        have hm : (Event.recv data f).cmd? = some c := by simp [Event.cmd?, hc]
        exact Does.andThen (.single
          (.other a.incoming rfl (fun _ _ => id) a.resolving (o := [.received c]) (by simp [Output.isOwn])))
          (does_processIncoming (by simp [‹a.incoming = _›, Incoming.stops?]) hm)
      · exact .single (.other a.incoming rfl (fun _ _ => id) a.resolving (o := [.returned true])
          (by simp [Output.isOwn]))
    · cases h
  | accept i peername =>
    refine .inr ⟨rfl, ?_⟩
    simp only [step] at h
    split at h
    · split at h <;> cases h
      exact .single (.accept ‹_› ‹_› peername rfl)
    · cases h
  | conn j e' =>
    refine .inr ⟨rfl, ?_⟩
    cases e' with
    | start connectiontoken =>
      simp only [step] at h
      split at h
      · split at h
        · subst connectiontoken
          obtain ⟨r, hr, heq⟩ := Option.map_eq_some_iff.1 h
          obtain ⟨rfl, rfl⟩ := Prod.mk.inj heq
          exact .single (.start ‹_› rfl hr)
        · cases h
      · cases h
    | _ =>
      simp only [step] at h
      split at h
      · obtain ⟨r, hr, heq⟩ := Option.map_eq_some_iff.1 h
        obtain ⟨rfl, rfl⟩ := Prod.mk.inj heq
        exact .single (.conn ‹_› rfl (fun _ h => by cases h) hr)
      · cases h
  | resolved k | resolveSent k | resolveFailed k =>
    refine .inr ⟨rfl, ?_⟩
    simp only [step] at h
    split at h <;> cases h
    exact .single (.other a.incoming rfl (fun _ _ => id) _ (by simp [Output.isOwn]))
  | sent | drained | sendFailed exc | drainFailed =>
    simp only [step] at h
    exact .inr ⟨rfl, does_stepIncoming h⟩

end Wsnet.Agent
