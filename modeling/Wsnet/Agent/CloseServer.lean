import Wsnet.Agent.Connections
import Wsnet.Agent.EndsOnOk

/-!
# Closing a TCP server

`process_incoming` closes a TCP server by stopping, one after another, the connections whose tokens
were in the table when it started, and by cancelling the server's task after them. Each `stop` waits
for a send, and while it waits a connection that ends by itself may take its entry out of the table:
the loop then looks up a token that is gone and fails. A connection that is accepted meanwhile is not
in the list and is never stopped. `Undisturbed` excludes these two; along runs of undisturbed steps
the loop goes through (`closeServer_run`).
-/

namespace Wsnet

namespace TcpServer
variable {s s' : TcpServer} {e : Event} {o : List Effect}

/-- After `socket_connect` has returned nothing is entered into a table. -/
theorem step_of_done (hm : s.main = .done) (h : s.step e = some (s', o)) :
    s'.main = .done ∧ o = [] ∧ (s.cancelled = true → s'.cancelled = true) := by
  revert h
  fun_cases step s e <;> rintro ⟨⟩ <;> simp_all

theorem serve_of_step (h : s.step e = some (s', o)) (hs : s.serve ≠ .none ∨ .setServer ∈ o) : s'.serve ≠ .none := by
  revert h
  fun_cases step s e <;> rintro ⟨⟩ <;> simp_all

end TcpServer

namespace Agent
variable {a a' : Agent} {e : Event} {es : List Event} {o os : List Output} {i j k : Nat} {t : Bytes}
  {c c' : TCPServerConnection} {rest : List Bytes}

/-- A task in `__servers` is that of a server whose `serve_forever` was created. -/
def Served (a : Agent) : Prop :=
  ∀ t i s ts, a.servers.get? t = some i → a.sessions[i]? = some s → s.task = .tcpServer ts → ts.serve ≠ .none

theorem tcpServer_cancelServer {s : Session} {ts : TcpServer} (h : (cancelServer s).task = .tcpServer ts) :
    ∃ ts₀, s.task = .tcpServer ts₀ ∧ ts = { ts₀ with cancelled := true } := by
  unfold cancelServer at h
  split at h <;> simp_all

theorem Served.act (htab : Tables a) (hp : Served a) (h : Act e a a' o) : Served a' := by
  intro t i s ts hi hs hts
  cases change_of_act h with
  | put hm hq hs₀ =>
    rcases getElem?_set_cases hs with ⟨rfl, rfl⟩ | ⟨-, hs⟩
    · cases hts
    · exact hp t i s ts hi hs hts
  | create hm =>
    rw [List.getElem?_append] at hs
    split at hs
    · exact hp t i s ts hi hs hts
    · obtain ⟨s₀, hs₀, -⟩ | ⟨s₀, hs₀, -⟩ := htab.server hi <;>
        exact absurd (List.getElem?_eq_some_iff.1 hs₀).1 ‹_›
  | @cancel _ k s₀ hq hs₀ =>
    have hi' := Dict.get?_of_get?_del hi
    rcases getElem?_set_cases hs with ⟨rfl, rfl⟩ | ⟨-, hs⟩
    · obtain ⟨ts₀, hts₀, rfl⟩ := tcpServer_cancelServer hts
      exact hp t i s₀ ts₀ hi' hs₀ hts₀
    · exact hp t i s ts hi' hs hts
  | _ => exact hp t i s ts hi hs hts

theorem Served.session (hp : Served a) {s s' : Session} {e : Session.Event} {os : List Effect}
    (hs : a.sessions[i]? = some s)
    (h : s.step e = some (s', os)) : Served (a.putSession i s' os).1 := by
  intro t k s₁ ts hk hs₁ hts
  rw [sessions_putSession] at hs₁
  rw [servers_putSession] at hk
  have hnew : i = k → .setServer ∈ os ∨ a.servers.get? t = some k → s'.task = .tcpServer ts → ts.serve ≠ .none := by
    rintro rfl hor htask
    have ht := (Session.step_eq_some h).2
    rw [htask] at ht
    generalize hst : s.task = st at ht
    generalize s.taskEvent e = e' at ht
    cases ht with
    | tcpServer hstep => exact TcpServer.serve_of_step hstep (hor.symm.imp (fun h => hp t i s _ h hs hst) id)
  rcases getElem?_set_cases hs₁ with ⟨rfl, rfl⟩ | ⟨hne, hs₁⟩
  · refine hnew rfl ?_ hts
    split at hk
    · exact .inl (‹_ ∧ _›).2
    · exact .inr hk
  · split at hk
    · cases hk; exact absurd rfl hne
    · exact hp t k s₁ ts hk hs₁ hts

/-! ### The loop -/

/-- `returned` among the outputs. -/
def returns (os : List Output) : List Bool :=
  os.filterMap fun
    | .returned ok => some ok
    | _ => none

@[simp] theorem returns_nil : returns [] = [] := rfl

@[simp] theorem returns_append (os os' : List Output) : returns (os ++ os') = returns os ++ returns os' :=
  List.filterMap_append

@[simp] theorem returns_conn (j : Nat) (os : List TCPServerConnection.Effect) : returns (os.map (.conn j)) = [] := by
  simp [returns]

@[simp] theorem returns_putConn (a : Agent) (j : Nat) (c : TCPServerConnection) (os : List TCPServerConnection.Effect) :
    returns (a.putConn j c os).2 = [] := returns_conn j os

/-- Before `rest` is gone through: the server is there, the tokens of `rest` are in its table, and its other
connections have been told to stop. -/
structure Looping (a : Agent) (t : Bytes) (i : Nat) (rest : List Bytes) : Prop where
  server : a.servers.get? t = some i
  session : ∃ s ts, a.sessions[i]? = some s ∧ s.task = .tcpServer ts ∧ ts.main = .done
  nodup : rest.Nodup
  keys : ∀ ct ∈ rest, ∃ table k, a.serverTcpConnections.get? t = some table ∧ table.get? ct = some k
  stopped : ∀ c ∈ a.conns, c.token = t → c.run ≠ .accepted ∧ (c.disconnected = true ∨ c.connectiontoken ∈ rest)

/-- The loop waits for the send of the connection `j`. -/
structure Closing (a : Agent) (t : Bytes) (i j : Nat) (rest : List Bytes) : Prop extends Looping a t i rest where
  incoming : a.incoming = .closing t j rest
  conn : ∃ c, a.conns[j]? = some c ∧ c.token = t ∧ c.connectiontoken ∉ rest

/-- The server is cancelled and forgotten, and its connections have been told to stop. -/
structure Closed (a : Agent) (t : Bytes) (i : Nat) : Prop where
  removed : a.servers.get? t = none
  cancelled : ∃ s ts, a.sessions[i]? = some s ∧ s.task = .tcpServer ts ∧ ts.main = .done ∧ ts.cancelled = true
  stopped : ∀ c ∈ a.conns, c.token = t → c.run ≠ .accepted ∧ c.disconnected = true

/-- What has become of the closing of the server: it goes on, or it has returned `(True, None)`. -/
def Closes (a : Agent) (t : Bytes) (i : Nat) (rs : List Bool) : Prop :=
  (rs = [] ∧ ∃ j rest, Closing a t i j rest) ∨ ∃ rs', rs = true :: rs' ∧ Closed a t i

/-- A connection goes on, and the entries of `rest` stay. -/
theorem Looping.follow (hp : Looping a t i rest) (hj : a.conns[j]? = some c) (hf : TCPServerConnection.Follows c c')
    {os : List TCPServerConnection.Effect} {incoming : Incoming}
    (hos : (∀ x ∈ os, x ≠ .register ∧ x ≠ .unregister) ∨
      os = [.unregister] ∧ (c.token = t → c.connectiontoken ∉ rest)) :
    Looping { (a.putConn j c' os).1 with incoming } t i rest where
  server := by simpa using hp.server
  session := by simpa using hp.session
  nodup := hp.nodup
  keys := by
    intro ct hct
    obtain ⟨table, k, h1, h2⟩ := hp.keys ct hct
    rcases hos with hos | ⟨rfl, hne⟩
    · exact ⟨table, k, by simp [serverTcpConnections_putConn, foldl_connEntry hos, h1], h2⟩
    · by_cases ht : t = c'.token
      · refine ⟨table.del c'.connectiontoken, k, by simp [serverTcpConnections_putConn, ← ht, connEntry, h1], ?_⟩
        rw [Dict.get?_del_ne _ ?_]
        · exact h2
        · rintro rfl
          rw [hf.connectiontoken] at hct
          exact hne (by rw [ht, hf.token]) hct
      · exact ⟨table, k, by simp [serverTcpConnections_putConn, ht, h1], h2⟩
  stopped := by
    intro d hd ht
    simp only [conns_putConn] at hd
    rcases List.mem_or_eq_of_mem_set hd with hd | rfl
    · exact hp.stopped d hd ht
    · rw [hf.token] at ht
      refine ⟨hf.run, ?_⟩
      rw [hf.connectiontoken]
      exact (hp.stopped c (List.mem_of_getElem? hj) ht).2.imp hf.disconnected id

/-- The connection at the head of the list has been told to stop. -/
theorem Looping.tail {ct : Bytes} (hc : Conns a) (hp : Looping a t i (ct :: rest)) (hj : a.conns[j]? = some c)
    (hct : c.connectiontoken = ct) (hrun : c.run ≠ .accepted) (hdisc : c.disconnected = true) : Looping a t i rest where
  server := hp.server
  session := hp.session
  nodup := hp.nodup.of_cons
  keys ct h := hp.keys ct (List.mem_cons_of_mem _ h)
  stopped := by
    intro d hd ht
    obtain ⟨hdrun, h⟩ := hp.stopped d hd ht
    refine ⟨hdrun, h.elim .inl fun hmem => ?_⟩
    rcases List.mem_cons.1 hmem with heq | hmem
    · obtain ⟨k, hk⟩ := List.mem_iff_getElem?.1 hd
      obtain rfl := hc.unique hk hj hdrun hrun (heq.trans hct.symm)
      cases hk.symm.trans hj
      exact .inl hdisc
    · exact .inr hmem

/-- One round of the loop: the connection of the first token is told to stop. -/
theorem Looping.beginStop {ct : Bytes} {table : Dict Bytes Nat} (incoming : Incoming) (hc : Conns a)
    (hp : Looping a t i (ct :: rest)) (ht : a.serverTcpConnections.get? t = some table) (hk : table.get? ct = some j)
    (hj : a.conns[j]? = some c) (h1 : ∀ k, incoming.stops? = some k → k = j)
    (h2 : ∀ k data, incoming ≠ .draining k data) :
    Conns { (a.putConn j c.beginStop.1 c.beginStop.2).1 with incoming } ∧
      Looping { (a.putConn j c.beginStop.1 c.beginStop.2).1 with incoming } t i rest ∧
        ∃ c', { (a.putConn j c.beginStop.1 c.beginStop.2).1 with incoming }.conns[j]? = some c' ∧ c'.token = t ∧
          c'.connectiontoken ∉ rest := by
  obtain ⟨d, hd, htok, hct, hrun⟩ := hc.entry ht hk
  cases hj.symm.trans hd
  have hf := TCPServerConnection.follows_beginStop hrun
  have hos := not_register_of_sent (TCPServerConnection.effects_beginStop (c := c))
  have hj' : { (a.putConn j c.beginStop.1 c.beginStop.2).1 with incoming }.conns[j]? = some c.beginStop.1 := by
    simpa using List.getElem?_set_self (List.getElem?_eq_some_iff.1 hj).1
  have hc' : Conns { (a.putConn j c.beginStop.1 c.beginStop.2).1 with incoming } :=
    hc.follow hj hf (by simp) (fun x hx => (hos x hx).1) (fun k hk => .inr ⟨h1 k hk, by simp⟩)
      fun k data hk => absurd hk (h2 k data)
  refine ⟨hc', (hp.follow hj hf (.inl hos)).tail hc' hj' (hf.connectiontoken.trans hct) hf.run (by simp), _,
    hj', ?_, ?_⟩
  · exact hf.token.trans htok
  · rw [hf.connectiontoken, hct]
    exact (List.nodup_cons.1 hp.nodup).1

theorem closeServer_spec (hp : Looping a t i []) : Closes (a.closeServer t).1 t i (returns (a.closeServer t).2) := by
  obtain ⟨s, ts, hs, hts, hm⟩ := hp.session
  have hi := (List.getElem?_eq_some_iff.1 hs).1
  simp only [closeServer, hp.server, hs]
  refine .inr ⟨[], rfl, ⟨by simp [return_], ?_, fun c hc ht => ?_⟩⟩
  · exact ⟨cancelServer s, { ts with cancelled := true },
      List.getElem?_set_self hi, by simp [cancelServer, hts], hm, rfl⟩
  · exact (hp.stopped c hc ht).imp id fun h => h.resolve_right List.not_mem_nil

theorem closeLoop_spec (hc : Conns a) (ha : a.incoming.stops? = none) (hp : Looping a t i rest) :
    Closes (a.closeLoop t rest).1 t i (returns (a.closeLoop t rest).2) := by
  fun_induction closeLoop a t rest with
  | case1 => exact closeServer_spec hp
  | case2 a ct rest ht =>
    obtain ⟨table, k, h1, -⟩ := hp.keys ct List.mem_cons_self
    cases ht.symm.trans h1
  | case3 a ct rest table ht hk =>
    obtain ⟨table', k, h1, h2⟩ := hp.keys ct List.mem_cons_self
    cases ht.symm.trans h1
    cases hk.symm.trans h2
  | case4 a ct rest table ht j hj hno =>
    obtain ⟨c, hc', -⟩ := hc.entry ht hj
    cases hno.symm.trans hc'
  | case5 a ct rest table ht j hj c hcj hd ih =>
    obtain ⟨hc', hp', -⟩ := hp.beginStop .idle hc ht hj hcj (by simp [Incoming.stops?]) (by simp)
    exact ih hc' rfl hp'
  | case6 a ct rest table ht j hj c hcj hd r =>
    obtain ⟨hc', hp', hconn⟩ := hp.beginStop (.closing t j rest) hc ht hj hcj (by simp [Incoming.stops?]) (by simp)
    exact .inl ⟨returns_conn j _, j, rest, hp', rfl, hconn⟩

/-! ### Undisturbed steps -/

/-- A connection is accepted for the server `t`. -/
def Event.accepts (t : Bytes) (a : Agent) : Event → Bool
  | .accept i _ =>
    match a.sessions[i]? with
    | some s => s.cmd.token = t
    | none => false
  | _ => false

/-- A connection of the server `t` takes its entry away before the loop has reached it. -/
def Event.removesEarly (t : Bytes) (a : Agent) : Event → Bool
  | .conn k .sent =>
    match a.incoming, a.conns[k]? with
    | .closing _ _ rest, some c => c.token = t ∧ c.run = .stopping ∧ c.connectiontoken ∈ rest
    | _, _ => false
  | _ => false

/-- A CONNECT with the token `t` is received. -/
def Event.connects (t : Bytes) (e : Event) : Bool :=
  match e.cmd? with
  | some (.CONNECT c) => c.token = t
  | _ => false

/-- No send fails, the token is not used again, and the closing of the server `t` is not disturbed. -/
def Undisturbed (t : Bytes) (a : Agent) (e : Event) : Bool :=
  !e.isSendFailed && !e.connects t && !e.accepts t a && !e.removesEarly t a

/-- The steps that are undisturbed. -/
def undisturbedStep (t : Bytes) (a : Agent) (e : Event) : Option (Agent × List Output) :=
  if Undisturbed t a e then a.step e else none

theorem undisturbedStep_eq_some {r : Agent × List Output} (h : undisturbedStep t a e = some r) :
    (e.isSendFailed = false ∧ e.connects t = false ∧ e.accepts t a = false ∧ e.removesEarly t a = false) ∧
      a.step e = some r := by
  unfold undisturbedStep at h
  split at h
  · exact ⟨by simpa [Undisturbed, and_assoc] using ‹Undisturbed t a e = true›, h⟩
  · cases h

theorem ne_connect_of_connects (h : e.connects t = false) (c : WSNConnect) (hc : e.cmd? = some (.CONNECT c)) :
    c.token ≠ t := by
  simpa [Event.connects, hc] using h

/-- Steps of sessions leave a server alone whose `socket_connect` is over and which has its token to itself. -/
theorem server_putSession {s s' : Session} {e : Session.Event} {os : List Effect} (hsole : Sole a.sessions t i)
    {P : Bool → Prop} (hP : ∀ b b' : Bool, (b = true → b' = true) → P b → P b')
    (hsess : ∃ s ts, a.sessions[i]? = some s ∧ s.task = .tcpServer ts ∧ ts.main = .done ∧ P ts.cancelled)
    (hk : a.sessions[k]? = some s) (h : s.step e = some (s', os)) :
    (a.putSession k s' os).1.servers.get? t = a.servers.get? t ∧
      (a.putSession k s' os).1.serverTcpConnections.get? t = a.serverTcpConnections.get? t ∧
        ∃ s ts, (a.putSession k s' os).1.sessions[i]? = some s ∧ s.task = .tcpServer ts ∧ ts.main = .done ∧
          P ts.cancelled := by
  obtain ⟨s₁, ts₁, hs₁, hts₁, hm, hcan⟩ := hsess
  have hi := (List.getElem?_eq_some_iff.1 hs₁).1
  rw [servers_putSession, serverTcpConnections_putSession, sessions_putSession]
  by_cases hik : k = i
  · subst hik
    cases hk.symm.trans hs₁
    have ht := (Session.step_eq_some h).2
    rw [hts₁] at ht
    generalize hst' : s'.task = st' at ht
    generalize s.taskEvent e = e' at ht
    cases ht with
    | tcpServer hstep =>
      obtain ⟨hm', rfl, hmono⟩ := TcpServer.step_of_done hm hstep
      exact ⟨if_neg (by simp), if_neg (by simp), s', _, List.getElem?_set_self hi, hst', hm', hP _ _ hmono hcan⟩
  · have hne : t ≠ s'.cmd.token := by
      rintro rfl
      exact hik (hsole k s hk (by rw [(Session.step_eq_some h).1]))
    exact ⟨if_neg fun h => hne h.1, if_neg fun h => hne h.1, s₁, ts₁, (List.getElem?_set_ne hik).trans hs₁,
      hts₁, hm, hcan⟩

theorem Closing.putSession {s s' : Session} {e : Session.Event} {os : List Effect} (hsole : Sole a.sessions t i)
    (hp : Closing a t i j rest) (hk : a.sessions[k]? = some s) (h : s.step e = some (s', os)) :
    Closing (a.putSession k s' os).1 t i j rest := by
  obtain ⟨hserver, htcp, s₁, ts₁, hs₁, hts₁, hm₁, -⟩ :=
    server_putSession hsole (P := fun _ => True) (fun _ _ _ _ => trivial)
      (by simpa using hp.session) hk h
  refine ⟨⟨hserver.trans hp.server, ⟨s₁, ts₁, hs₁, hts₁, hm₁⟩, hp.nodup, ?_, ?_⟩, ?_, ?_⟩
  · rw [htcp]; exact hp.keys
  · rw [conns_putSession]; exact hp.stopped
  · rw [incoming_putSession]; exact hp.incoming
  · rw [conns_putSession]; exact hp.conn

theorem Closed.putSession {s s' : Session} {e : Session.Event} {os : List Effect} (hsole : Sole a.sessions t i)
    (hp : Closed a t i) (hk : a.sessions[k]? = some s) (h : s.step e = some (s', os)) :
    Closed (a.putSession k s' os).1 t i := by
  obtain ⟨hserver, -, hsess⟩ := server_putSession hsole (P := (· = true)) (fun _ _ h => h) hp.cancelled hk h
  refine ⟨hserver.trans hp.removed, hsess, ?_⟩
  rw [conns_putSession]
  exact hp.stopped

/-- The step of a connection, and where it shows: only a start changes the counter. -/
theorem conn_of_step {e : TCPServerConnection.Event} (h : a.step (.conn k e) = some (a', o)) :
    ∃ (connId : Nat) (c c' : TCPServerConnection) (os : List TCPServerConnection.Effect), a.conns[k]? = some c ∧
      c.step e = some (c', os) ∧ a' = ({ a with connId }.putConn k c' os).1 ∧ o = os.map (.conn k) := by
  cases e with
  | start ct =>
    simp only [step] at h
    split at h <;> try cases h
    split at h <;> try cases h
    obtain ⟨r, hr, heq⟩ := Option.map_eq_some_iff.1 h
    obtain ⟨rfl, rfl⟩ := Prod.mk.inj heq
    exact ⟨a.connId + 1, _, r.1, r.2, ‹_›, hr, rfl, rfl⟩
  | _ =>
    simp only [step] at h
    split at h <;> try cases h
    obtain ⟨r, hr, heq⟩ := Option.map_eq_some_iff.1 h
    obtain ⟨rfl, rfl⟩ := Prod.mk.inj heq
    exact ⟨a.connId, _, r.1, r.2, ‹_›, hr, rfl, rfl⟩

/-- The connection of another server does not matter. -/
theorem Looping.other (hp : Looping a t i rest) (ht : c.token ≠ t) (htok : c'.token = c.token)
    {os : List TCPServerConnection.Effect} : Looping (a.putConn k c' os).1 t i rest where
  server := by simpa using hp.server
  session := by simpa using hp.session
  nodup := hp.nodup
  keys ct hct := by
    rw [serverTcpConnections_putConn, if_neg (by rw [htok]; exact ht.symm)]
    exact hp.keys ct hct
  stopped := by
    intro d hd hdt
    rw [conns_putConn] at hd
    rcases List.mem_or_eq_of_mem_set hd with hd | rfl
    · exact hp.stopped d hd hdt
    · exact absurd (htok.symm.trans hdt) ht

/-- A step of a connection while the loop waits. -/
theorem Closing.conn_step {e : TCPServerConnection.Event} (hp : Closing a t i j rest)
    (hsend : Event.isSendFailed (.conn k e) = false) (hearly : Event.removesEarly t a (.conn k e) = false)
    (h : a.step (.conn k e) = some (a', o)) : Closing a' t i j rest ∧ returns o = [] := by
  obtain ⟨connId, c, c', os, hk, hstep, rfl, rfl⟩ := conn_of_step h
  have hloop : Looping { a with connId } t i rest := { hp.toLooping with }
  obtain ⟨d, hj, hdt, hdct⟩ := hp.conn
  -- the connection the loop waits for keeps its tokens
  have hconn : (c'.token = c.token) → (c.token = t → c'.connectiontoken = c.connectiontoken) →
      ∃ d', ({ a with connId }.putConn k c' os).1.conns[j]? = some d' ∧ d'.token = t ∧ d'.connectiontoken ∉ rest := by
    intro htok hct
    rw [conns_putConn]
    by_cases hkj : k = j
    · subst hkj
      cases hk.symm.trans hj
      exact ⟨c', List.getElem?_set_self (List.getElem?_eq_some_iff.1 hk).1, htok.trans hdt, by rwa [hct hdt]⟩
    · exact ⟨d, (List.getElem?_set_ne hkj).trans hj, hdt, hdct⟩
  refine ⟨?_, returns_conn k os⟩
  by_cases hstart : ∃ ct, e = .start ct
  · obtain ⟨ct, rfl⟩ := hstart
    obtain ⟨hrun, htok, -⟩ := TCPServerConnection.start_of_step hstep
    have hne : c.token ≠ t := fun ht => (hp.stopped c (List.mem_of_getElem? hk) ht).1 hrun
    exact ⟨hloop.other hne htok, by simpa using hp.incoming, hconn htok fun ht => absurd ht hne⟩
  · have hs : e ≠ .sendFailed := by rintro rfl; cases hsend
    have hfollow : TCPServerConnection.Follows c c' ∧ ((∀ x ∈ os, x ≠ .register ∧ x ≠ .unregister) ∨
        os = [.unregister] ∧ (c.token = t → c.connectiontoken ∉ rest)) := by
      rcases TCPServerConnection.goes_of_step (fun ct h => hstart ⟨ct, h⟩) hs hstep with ⟨rfl, hrun, rfl, rfl⟩ | ⟨-, hg⟩
      · refine ⟨⟨rfl, rfl, rfl, by simp [hrun], by simp, id, fun _ => rfl⟩, .inr ⟨rfl, fun ht hmem => ?_⟩⟩
        simp [Event.removesEarly, hp.incoming, hk, ht, hrun, hmem] at hearly
      · exact ⟨hg.toFollows, .inl hg.effects⟩
    obtain ⟨hf, hos⟩ := hfollow
    refine ⟨?_, by simpa using hp.incoming, hconn hf.token fun _ => hf.connectiontoken⟩
    have : Looping { ({ a with connId }.putConn k c' os).1 with incoming := a.incoming } t i rest :=
      hloop.follow hk hf hos
    rwa [with_incoming (by simp)] at this

/-- The send the loop has waited for is over. -/
theorem Closing.sent_step (hc : Conns a) (hp : Closing a t i j rest) (h : a.step .sent = some (a', o)) :
    Closes a' t i (returns o) := by
  obtain ⟨c, hj, ht, hct⟩ := hp.conn
  have hrun : c.run ≠ .accepted := (hp.stopped c (List.mem_of_getElem? hj) ht).1
  obtain ⟨d, hd, hdisc, -⟩ := hc.stops (j := j) (by simp [hp.incoming, Incoming.stops?])
  cases hj.symm.trans hd
  have hf := TCPServerConnection.follows_endStop hrun true
  simp only [step, stepIncoming, hp.incoming, stopDone, hj] at h
  obtain ⟨rfl, rfl⟩ := Prod.mk.inj (Option.some.inj h)
  rw [returns_append, returns_putConn, List.nil_append, putConn_incoming]
  refine closeLoop_spec ?_ rfl (hp.toLooping.follow hj hf (.inr ⟨rfl, fun _ => hct⟩))
  exact hc.follow hj hf (fun _ => hdisc) (by simp [TCPServerConnection.endStop]) (by simp [Incoming.stops?]) (by simp)

theorem not_mem_of_accepts {s : Session} {ts : TcpServer} {peername : Peername} (hsv : Servers a)
    (he : Event.accepts t a (.accept k peername) = false) (hs : a.sessions[k]? = some s)
    (hts : s.task = .tcpServer ts) :
    ts.token ≠ t := by
  rw [(hsv.fits s (List.mem_of_getElem? hs)).2 ts.token (by rw [hts]; rfl)]
  simpa [Event.accepts, hs] using he

theorem Closing.step (hsv : Servers a) (hc : Conns a) (hsole : Sole a.sessions t i) (hp : Closing a t i j rest)
    (h : undisturbedStep t a e = some (a', o)) : Closes a' t i (returns o) := by
  obtain ⟨⟨hsend, -, haccept, hearly⟩, h⟩ := undisturbedStep_eq_some h
  cases e with
  | recv => simp [Agent.step, hp.incoming] at h
  | sent => exact hp.sent_step hc h
  | drained | drainFailed => simp [Agent.step, stepIncoming, hp.incoming] at h
  | sendFailed | resolveFailed => cases hsend
  | session k e' =>
    rcases step_cases h with ⟨k, e', s, s', o', -, -, hs, hstep, heq⟩ | ⟨h, -⟩
    · obtain ⟨rfl, rfl⟩ := Prod.mk.inj heq
      exact .inl ⟨by simp [returns], j, rest, hp.putSession hsole hs hstep⟩
    · cases h
  | accept k peername =>
    simp only [Agent.step] at h
    split at h <;> try cases h
    rename_i cmd ts hs
    split at h <;> cases h
    refine .inl ⟨rfl, j, rest, { hp with stopped := ?_, conn := ?_ }⟩
    · intro d hd hdt
      rcases List.mem_append.1 hd with hd | hd
      · exact hp.stopped d hd hdt
      · rw [List.mem_singleton.1 hd] at hdt
        exact absurd hdt (not_mem_of_accepts hsv haccept hs rfl)
    · obtain ⟨c, hj, hc⟩ := hp.conn
      exact ⟨c, (List.getElem?_append_left (List.getElem?_eq_some_iff.1 hj).1).trans hj, hc⟩
  | conn k e' =>
    obtain ⟨hp', ho⟩ := hp.conn_step hsend hearly h
    exact .inl ⟨ho, j, rest, hp'⟩
  | resolved k | resolveSent k =>
    simp only [Agent.step] at h
    split at h <;> cases h
    exact .inl ⟨rfl, j, rest, { hp with }⟩

theorem Closed.act (hsend : e.isSendFailed = false) (haccept : ∀ k p, e = .accept k p → Event.accepts t a e = false)
    (hsv : Servers a) (hc : Conns a) (hp : Closed a t i) (h : Act e a a' o) : Closed a' t i := by
  -- a step of a connection that is not its start
  have follow : ∀ {k c c' os incoming}, a.conns[k]? = some c → TCPServerConnection.Follows c c' →
      Closed { (a.putConn k c' os).1 with incoming } t i := by
    intro k c c' os incoming hk hf
    refine ⟨by simpa using hp.removed, by simpa using hp.cancelled, fun d hd ht => ?_⟩
    simp only [conns_putConn] at hd
    rcases List.mem_or_eq_of_mem_set hd with hd | rfl
    · exact hp.stopped d hd ht
    · exact ⟨hf.run, hf.disconnected (hp.stopped c (List.mem_of_getElem? hk) (hf.token ▸ ht)).2⟩
  have session : ∀ {k s s'}, a.sessions[k]? = some s →
      (∀ ts, s.task = .tcpServer ts → ts.main = .done → ts.cancelled = true →
        ∃ ts', s'.task = .tcpServer ts' ∧ ts'.main = .done ∧ ts'.cancelled = true) →
      ∃ s ts, (a.sessions.set k s')[i]? = some s ∧ s.task = .tcpServer ts ∧ ts.main = .done ∧ ts.cancelled = true := by
    intro k s s' hk h
    obtain ⟨s₁, ts, hs₁, hts, hm, hcan⟩ := hp.cancelled
    by_cases hki : k = i
    · subst hki
      cases hk.symm.trans hs₁
      exact ⟨s', (h ts hts hm hcan).imp fun _ h => ⟨List.getElem?_set_self (List.getElem?_eq_some_iff.1 hk).1, h⟩⟩
    · exact ⟨s₁, ts, (List.getElem?_set_ne hki).trans hs₁, hts, hm, hcan⟩
  cases h with
  | put hm hq hs => exact ⟨hp.removed, session hs (by simp), hp.stopped⟩
  | create hm =>
    obtain ⟨s₁, ts, hs₁, h⟩ := hp.cancelled
    exact ⟨hp.removed, ⟨s₁, ts, (List.getElem?_append_left (List.getElem?_eq_some_iff.1 hs₁).1).trans hs₁, h⟩,
      hp.stopped⟩
  | cancel hq hs =>
    refine ⟨Option.eq_none_iff_forall_ne_some.2 fun k hk => ?_, session hs fun ts hts hm _ => ?_, hp.stopped⟩
    · cases hp.removed.symm.trans (Dict.get?_of_get?_del hk)
    · exact ⟨{ ts with cancelled := true }, by simp [cancelServer, hts], hm, rfl⟩
  | openFile | closeFile | delFile | drain | other => exact { hp with }
  | @accept k cmd ts hs hl peername hx =>
    subst hx
    refine ⟨hp.removed, hp.cancelled, fun d hd ht => ?_⟩
    rcases List.mem_append.1 hd with hd | hd
    · exact hp.stopped d hd ht
    · rw [List.mem_singleton.1 hd] at ht
      exact absurd ht (not_mem_of_accepts hsv (haccept k peername rfl) hs rfl)
  | @start k c c' os hk hx h =>
    obtain ⟨hrun, htok, -⟩ := TCPServerConnection.start_of_step h
    refine ⟨by simpa using hp.removed, by simpa using hp.cancelled, fun d hd ht => ?_⟩
    simp only [conns_putConn] at hd
    rcases List.mem_or_eq_of_mem_set hd with hd | rfl
    · exact hp.stopped d hd ht
    · exact absurd hrun (hp.stopped c (List.mem_of_getElem? hk) (htok ▸ ht)).1
  | @conn k c c' os hk e' hx he h =>
    have hs : e' ≠ .sendFailed := by rintro rfl; rw [hx] at hsend; cases hsend
    have hf : TCPServerConnection.Follows c c' := by
      rcases TCPServerConnection.goes_of_step he hs h with ⟨-, hrun, rfl, -⟩ | ⟨-, hg⟩
      · exact ⟨rfl, rfl, rfl, by simp [hrun], by simp, id, fun _ => rfl⟩
      · exact hg.toFollows
    have : Closed { (a.putConn k c' os).1 with incoming := a.incoming } t i := follow hk hf
    rwa [with_incoming (by simp)] at this
  | @beginStop k c hk hj ha incoming hd hi => exact follow hk (TCPServerConnection.follows_beginStop (hc.started hk hj))
  | @endStop k c hk ha sent hx =>
    obtain ⟨d, hd, -, hrun⟩ := hc.stops ha
    cases hk.symm.trans hd
    rw [putConn_incoming]
    exact follow hk (TCPServerConnection.follows_endStop hrun sent)

/-- What has become of the closing stays so. -/
theorem Closes.step {rs : List Bool} (hi : ConnInv a) (hsole : Sole a.sessions t i) (hp : Closes a t i rs)
    (h : undisturbedStep t a e = some (a', o)) : Closes a' t i (rs ++ returns o) := by
  rcases hp with ⟨rfl, j, rest, hp⟩ | ⟨rs, rfl, hp⟩
  · exact hp.step hi.servers hi.conns hsole h
  obtain ⟨⟨hsend, -, haccept, -⟩, h⟩ := undisturbedStep_eq_some h
  refine .inr ⟨rs ++ returns o, rfl, ?_⟩
  by_cases hx : ∃ k p, e = .accept k p
  · obtain ⟨k, p, rfl⟩ := hx
    simp only [Agent.step] at h
    split at h <;> try cases h
    rename_i cmd ts hs
    split at h <;> cases h
    exact hp.act hsend (fun _ _ h => by cases h; exact haccept) hi.servers hi.conns (.accept hs ‹_› p rfl)
  · rcases step_cases h with ⟨k, e', s, s', o', -, -, hs, hstep, heq⟩ | ⟨-, h⟩
    · obtain rfl : a' = (a.putSession k s' o').1 := congrArg Prod.fst heq
      exact hp.putSession hsole hs hstep
    · refine (h.state_preserve (P := fun a => ConnInv a ∧ Closed a t i) (fun ha hp => ?_) ⟨hi, hp⟩).2
      exact ⟨hp.1.act hsend ha, hp.2.act hsend (fun k p h => absurd ⟨k, p, h⟩ hx) hp.1.servers hp.1.conns ha⟩

theorem closes_run {rs : List Bool} (hi : ConnInv a) (hsole : Sole a.sessions t i) (hp : Closes a t i rs)
    (h : Run (undisturbedStep t) a es a' os) :
    ConnInv a' ∧ Sole a'.sessions t i ∧ Closes a' t i (rs ++ returns os) := by
  refine h.invariant (P := fun a os => ConnInv a ∧ Sole a.sessions t i ∧ Closes a t i (rs ++ returns os))
    (fun {a a' e os o} hp hs => ?_) ⟨hi, hsole, by simpa using hp⟩
  obtain ⟨hi, hsole, hp⟩ := hp
  obtain ⟨⟨hsend, hconnect, -, -⟩, hs'⟩ := undisturbedStep_eq_some hs
  rw [returns_append, ← List.append_assoc]
  exact ⟨hi.step hsend hs', only_step (ne_connect_of_connects hconnect) hsole hs', hp.step hi hsole hs⟩

/-! ### The closing as a whole -/

variable {full : Bool} {info : WSNGetInfoReply} {es₀ : List Event} {os₀ : List Output} {data : Bytes} {f : FileOs}
  {s : Session} {ts : TcpServer} {c : WSNOK}

theorem served_of_run (h : Run step (init full info) es a os) : Served a := by
  refine (h.state_invariant (P := fun a => Tables a ∧ Served a) (fun hp h => ?_) ⟨.init full info, ?_⟩).2
  · exact preserved (P := fun a => Tables a ∧ Served a) (fun hs _ h hp => ⟨hp.1.session hs h, hp.2.session hs h⟩)
      (fun h hp => ⟨hp.1.act h, hp.2.act hp.1 h⟩) h hp
  · intro t i s ts hi
    cases hi

/-- The session `i` is the server of the token `t`, to which no other session and no open file has it, and its
connections have all started. -/
structure ServerReady (a : Agent) (t : Bytes) (i : Nat) : Prop where
  server : a.servers.get? t = some i
  tcp : ∃ s ts, a.sessions[i]? = some s ∧ s.task = .tcpServer ts
  sole : Sole a.sessions t i
  file : a.fileQueues.get? t = none
  started : ∀ c ∈ a.conns, c.token = t → c.run ≠ .accepted

theorem closes_of_recv (htab : Tables a) (hserved : Served a) (hi : ConnInv a) (hr : ServerReady a c.token i)
    (hd : CMD.fromBytes data = .ok (.OK c)) (h : a.step (.recv data f) = some (a', o)) :
    Closes a' c.token i (returns o) := by
  obtain ⟨s, ts, hs, hts⟩ := hr.tcp
  have hm : ts.main = .done :=
    (hi.servers.wf s (List.mem_of_getElem? hs) ts hts).serve (hserved _ i s ts hr.server hs hts)
  have hproc : a.processQueues.get? c.token = none := by
    refine Option.eq_none_iff_forall_ne_some.2 fun k hk => ?_
    obtain ⟨s', hk', ht, hb⟩ := htab.process hk
    cases hr.sole k s' hk' ht
    cases hs.symm.trans hk'
    rw [hts] at hb
    cases hb
  have hidle : a.incoming = .idle := by
    simp only [step] at h
    split at h
    · assumption
    · cases h
  have hstops : a.incoming.stops? = none := by rw [hidle]; rfl
  simp only [step, if_pos hidle, hd, processIncoming, show (CMD.OK c).token = c.token from rfl, hproc, hr.file,
    Dict.contains_iff.2 ⟨i, hr.server⟩, CMD.type, and_self, if_true, Option.some.injEq] at h
  have hbegin : ∀ {rest}, rest.Nodup →
      (∀ ct ∈ rest, ∃ table k, a.serverTcpConnections.get? c.token = some table ∧ table.get? ct = some k) →
        (∀ d ∈ a.conns, d.token = c.token → d.disconnected = true ∨ d.connectiontoken ∈ rest) →
        Looping a c.token i rest :=
    fun h1 h2 h3 => ⟨hr.server, ⟨s, ts, hs, hts, hm⟩, h1, h2, fun d hd ht => ⟨hr.started d hd ht, h3 d hd ht⟩⟩
  split at h <;> obtain ⟨rfl, rfl⟩ := Prod.mk.inj h
  · rename_i table htable
    refine closeLoop_spec hi.conns hstops (hbegin table.keys_nodup (fun ct hct => ?_) fun d hd ht => ?_)
    · obtain ⟨k, hk⟩ := Dict.mem_keys_iff.1 hct
      exact ⟨table, k, htable, hk⟩
    · obtain ⟨k, hk⟩ := List.mem_iff_getElem?.1 hd
      rcases (hi.stops _ i hr.sole).entered hk ht (hr.started d hd ht) with ⟨table', h1, h2⟩ | h
      · rw [ht, htable] at h1
        cases h1
        exact .inr (Dict.mem_keys_iff.2 ⟨k, h2⟩)
      · exact .inl h.2
  · rename_i htable
    refine closeServer_spec (hbegin List.nodup_nil (by simp) fun d hd ht => ?_)
    obtain ⟨table, h⟩ := Dict.contains_iff.1 (hi.conns.bound d hd)
    rw [ht, htable] at h
    cases h

/-- All of the server is closed: the task is cancelled and forgotten, and each connection has been stopped, and is
closed and not in the table unless its own `run` is in the `stop`. -/
structure AllClosed (a : Agent) (t : Bytes) (i : Nat) : Prop extends Closed a t i where
  gone : ∀ {j : Nat} {c : TCPServerConnection}, a.conns[j]? = some c → c.token = t → c.run ≠ .stopping →
    a.incoming.stops? ≠ some j → c.closed = true ∧ ¬ a.Entered j c
  emptied : (∀ {j : Nat} {c : TCPServerConnection}, a.conns[j]? = some c → c.token = t →
    c.run ≠ .stopping ∧ a.incoming.stops? ≠ some j) → ∀ table, a.serverTcpConnections.get? t = some table →
      table.keys = []

theorem Closed.all (hi : ConnInv a) (hsole : Sole a.sessions t i) (hp : Closed a t i) : AllClosed a t i := by
  have hgone : ∀ {j : Nat} {c : TCPServerConnection}, a.conns[j]? = some c → c.token = t → c.run ≠ .stopping →
      a.incoming.stops? ≠ some j → ¬ a.Entered j c := by
    intro j c hj ht hrun hin
    exact ((hi.stops t i hsole).gone hj ht (hp.stopped c (List.mem_of_getElem? hj) ht).2).resolve_right
      fun h => h.elim hrun hin
  refine { hp with gone := fun {j c} hj ht hrun hin => ⟨?_, hgone hj ht hrun hin⟩, emptied := fun hq table htable => ?_ }
  · have := (hi.stops t i hsole).entered hj ht (hp.stopped c (List.mem_of_getElem? hj) ht).1
    exact (this.resolve_left (hgone hj ht hrun hin)).1
  · refine Dict.keys_eq_nil_iff.2 fun ct => Option.eq_none_iff_forall_ne_some.2 fun j hk => ?_
    obtain ⟨c, hj, ht, hct, -⟩ := hi.conns.entry htable hk
    refine hgone hj ht (hq hj ht).1 (hq hj ht).2 ⟨table, ?_, ?_⟩
    · rw [ht, htable]
    · rw [hct, hk]

/-- The closing of a server, by undisturbed steps: `process_incoming` does not fail, and when it has returned all of the
server is closed. -/
theorem closeServer_run (h₀ : Run step (init full info) es₀ a os₀) (hes₀ : ∀ e ∈ es₀, e.isSendFailed = false)
    (hr : ServerReady a c.token i) (hd : CMD.fromBytes data = .ok (.OK c))
    (h : Run (undisturbedStep c.token) a (.recv data f :: es) a' os) :
    (returns os = [] ∧ ∃ j rest, a'.incoming = .closing c.token j rest) ∨
      ∃ rs, returns os = true :: rs ∧ AllClosed a' c.token i := by
  have hi : ConnInv a :=
    h₀.invariant_of (P := fun a _ => ConnInv a) (fun he hp h => hp.step he h) hes₀ (.init full info)
  have htab : Tables a := h₀.state_invariant (fun hp h => hp.step h) (.init full info)
  cases h with
  | @cons _ a₁ _ _ _ o os hrecv htail =>
  obtain ⟨⟨hsend, hconnect, -, -⟩, hstep⟩ := undisturbedStep_eq_some hrecv
  have hi₁ := hi.step hsend hstep
  have hsole₁ := only_step (ne_connect_of_connects hconnect) hr.sole hstep
  obtain ⟨hi', hsole', hc⟩ := closes_run hi₁ hsole₁ (closes_of_recv htab (served_of_run h₀) hi hr hd hstep) htail
  rw [returns_append]
  rcases hc with ⟨hrs, j, rest, hp⟩ | ⟨rs, hrs, hp⟩
  · exact .inl ⟨hrs, j, rest, hp.incoming⟩
  · exact .inr ⟨rs, hrs, hp.all hi' hsole'⟩

/-- A server with two connections, which have both started. -/
def twoConnections : List Event :=
  [.recv (connectFrame "TCP" 1) {}, .session 0 (.tcpServer .start), .session 0 (.opening noCalls),
  .session 0 (.tcpServer .sent),
    .session 0 (.tcpServer .serveStart), .accept 0 (.pair "h" 1), .accept 0 (.pair "h" 2),
    .conn 0 (.start (connectionId 10)), .conn 1 (.start (connectionId 11)), .conn 0 .sent, .conn 1 .sent]

theorem serverReady_of_twoConnections
    (h : a.servers.get? t = some 0 ∧ (∃ s ts, a.sessions = [s] ∧ s.task = .tcpServer ts) ∧
    a.fileQueues.get? t = none ∧ a.conns.map (·.run) = [.reading, .reading]) : ServerReady a t 0 := by
  obtain ⟨hserver, ⟨s, ts, hs, hts⟩, hfile, hconns⟩ := h
  refine ⟨hserver, ⟨s, ts, by simp [hs], hts⟩, fun j _ hj _ => ?_, hfile, fun c hc _ => ?_⟩
  · rw [hs] at hj
    have := (List.getElem?_eq_some_iff.1 hj).1
    simpa using this
  · have hrun := List.mem_map_of_mem (f := (·.run)) hc
    rw [hconns] at hrun
    simp_all

theorem closeServer_run_twoConnections : ∃ a os₀ a' os, Run step (init true someInfo) twoConnections a os₀ ∧
    Run (undisturbedStep (List.replicate 16 3)) a [.recv okFrame {}, .sent, .conn 1 .cancelled, .sent] a' os ∧
      ((returns os = [] ∧ ∃ j rest, a'.incoming = .closing (List.replicate 16 3) j rest) ∨
        ∃ rs, returns os = true :: rs ∧ AllClosed a' (List.replicate 16 3) 0) :=
  have ⟨a, os₀, a', os, h₀, hr, h⟩ : ∃ a os₀ a' os, Run step (init true someInfo) twoConnections a os₀ ∧
      (a.servers.get? (List.replicate 16 3) = some 0 ∧ (∃ s ts, a.sessions = [s] ∧ s.task = .tcpServer ts) ∧
        a.fileQueues.get? (List.replicate 16 3) = none ∧ a.conns.map (·.run) = [.reading, .reading]) ∧
      Run (undisturbedStep (List.replicate 16 3)) a [.recv okFrame {}, .sent, .conn 1 .cancelled, .sent] a' os :=
    ⟨_, _, _, _, .of_exec rfl, ⟨rfl, ⟨_, _, rfl, rfl⟩, rfl, rfl⟩, .of_exec rfl⟩
  ⟨a, os₀, a', os, h₀, h, closeServer_run (c := { token := List.replicate 16 3 }) h₀
    (by simp [twoConnections, Event.isSendFailed, Session.Event.isSendFailed]) (serverReady_of_twoConnections hr) rfl h⟩

/-- The second connection ends while the loop waits for the first: the loop does not find it, and the server stays. -/
theorem not_closed_twoConnections : ∃ a os₀ a' os, Run step (init true someInfo) twoConnections a os₀ ∧
    ServerReady a (List.replicate 16 3) 0 ∧
      Run step a [.recv okFrame {}, .conn 1 .readFailed, .conn 1 .sent, .sent] a' os ∧ returns os = [false] ∧
        a'.servers.get? (List.replicate 16 3) = some 0 ∧
          ∃ s ts, a'.sessions[0]? = some s ∧ s.task = .tcpServer ts ∧ ts.cancelled = false :=
  have ⟨a, os₀, a', os, h₀, hr, h⟩ : ∃ a os₀ a' os, Run step (init true someInfo) twoConnections a os₀ ∧
      (a.servers.get? (List.replicate 16 3) = some 0 ∧ (∃ s ts, a.sessions = [s] ∧ s.task = .tcpServer ts) ∧
        a.fileQueues.get? (List.replicate 16 3) = none ∧ a.conns.map (·.run) = [.reading, .reading]) ∧
      Run step a [.recv okFrame {}, .conn 1 .readFailed, .conn 1 .sent, .sent] a' os ∧ returns os = [false] ∧
        a'.servers.get? (List.replicate 16 3) = some 0 ∧
          ∃ s ts, a'.sessions[0]? = some s ∧ s.task = .tcpServer ts ∧ ts.cancelled = false :=
    ⟨_, _, _, _, .of_exec rfl, ⟨rfl, ⟨_, _, rfl, rfl⟩, rfl, rfl⟩, .of_exec rfl, rfl, rfl, _, _, rfl, rfl, rfl⟩
  ⟨a, os₀, a', os, h₀, serverReady_of_twoConnections hr, h⟩

end Agent

end Wsnet
