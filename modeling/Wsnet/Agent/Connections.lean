import Wsnet.Agent.Entries

/-!
# The connections of a TCP server and their table

A connection enters the table of its server when its `run` starts, under a connection token that no
other has, and is removed by the `stop` that does the work. `Conns` says how the two go together as
long as no send fails: a connection is in the table or has been stopped and closed, and one that has
begun to stop is in the table no more, unless the `stop` still waits for its send.
-/

namespace Wsnet

/-! ### Connection tokens -/

theorem Agent.connectionId_inj {m n : Nat} (h : connectionId m = connectionId n) : m = n := by
  have hd : ∀ n, (Nat.toDigits 10 n ++ List.replicate (16 - (Nat.toDigits 10 n).length) 'L').takeWhile Char.isDigit =
      Nat.toDigits 10 n := by
    intro n
    rw [List.takeWhile_append_of_pos fun c hc => toDigits_isDigit hc]
    cases 16 - (Nat.toDigits 10 n).length <;> simp [List.replicate_succ, Char.isDigit]
  unfold connectionId at h
  have hl := congrArg (List.takeWhile Char.isDigit) (String.ofList_injective (utf8Encode_inj h))
  rw [hd, hd] at hl
  rw [← Nat.ofDigitChars_ten_toDigits (n := m), hl, Nat.ofDigitChars_ten_toDigits]

/-! ### One connection -/

namespace TCPServerConnection
variable {c c' : TCPServerConnection} {e : Event} {o : List Effect}

/-- What a step leaves alone, and what it does not undo. -/
structure Follows (c c' : TCPServerConnection) : Prop where
  token : c'.token = c.token
  connectiontoken : c'.connectiontoken = c.connectiontoken
  peername : c'.peername = c.peername
  started : c.run ≠ .accepted
  run : c'.run ≠ .accepted
  disconnected : c.disconnected = true → c'.disconnected = true
  closed : c.closed = true → c'.closed = true

theorem follows_beginStop (h : c.run ≠ .accepted) : Follows c c.beginStop.1 where
  token := token_beginStop c
  connectiontoken := connectiontoken_beginStop c
  peername := by unfold beginStop; split <;> rfl
  started := h
  run := by rwa [run_beginStop]
  disconnected _ := disconnected_beginStop c
  closed h := closed_beginStop (.inl h)

theorem follows_endStop (h : c.run ≠ .accepted) (sent : Bool) : Follows c (c.endStop sent).1 :=
  ⟨rfl, rfl, rfl, h, h, id, fun _ => rfl⟩

theorem effects_beginStop : ∀ x ∈ c.beginStop.2, ∃ m, x = .sent m := by
  unfold beginStop; split <;> simp

/-- A step that does not touch the table; if it sets the event it goes into `stop`. -/
structure Goes (c c' : TCPServerConnection) (o : List Effect) : Prop extends Follows c c' where
  effects : ∀ x ∈ o, x ≠ .register ∧ x ≠ .unregister
  stop : c'.run = .stopping ∨ c'.disconnected = c.disconnected
  stopping : c'.run = .stopping → c'.disconnected = true

theorem goes_finish (h : c.run ≠ .accepted) : Goes c c.finish.1 c.finish.2 := by
  unfold finish beginStop
  split
  · exact ⟨⟨rfl, rfl, rfl, h, nofun, id, fun _ => rfl⟩, nofun, .inr rfl, nofun⟩
  · exact ⟨⟨rfl, rfl, rfl, h, nofun, fun _ => rfl, id⟩, by simp, .inl rfl, fun _ => rfl⟩

theorem goes_loop (h : c.run ≠ .accepted) : Goes c c.loop.1 c.loop.2 := by
  unfold loop
  split
  · exact goes_finish h
  · exact ⟨⟨rfl, rfl, rfl, h, nofun, id, id⟩, nofun, .inr rfl, nofun⟩

/-- A step of `run` after its start: the send of its own `stop` returns, or it does not touch the table. -/
theorem goes_of_step (he : ∀ ct, e ≠ .start ct) (hs : e ≠ .sendFailed) (h : c.step e = some (c', o)) :
    (e = .sent ∧ c.run = .stopping ∧ c' = { c with run := .done, closed := true } ∧ o = [.unregister]) ∨
      (c.run ≠ .stopping ∧ Goes c c' o) := by
  cases e with
  | start ct => exact absurd rfl (he ct)
  | sendFailed => exact absurd rfl hs
  | sent =>
    simp only [step] at h
    split at h
    · obtain ⟨rfl, rfl⟩ := Prod.mk.inj (Option.some.inj h)
      exact .inr ⟨by simp [*], goes_loop (by simp [*])⟩
    · split at h <;> obtain ⟨rfl, rfl⟩ := Prod.mk.inj (Option.some.inj h)
      · exact .inr ⟨by simp [*], goes_finish (by simp [*])⟩
      · exact .inr ⟨by simp [*], goes_loop (by simp [*])⟩
    · cases h; exact .inl ⟨rfl, ‹_›, rfl, rfl⟩
    · cases h
  | read data =>
    simp only [step] at h
    split at h <;> cases h
    exact .inr ⟨by simp [*], ⟨rfl, rfl, rfl, by simp [*], nofun, id, id⟩, by simp, .inr rfl, nofun⟩
  | readFailed =>
    simp only [step] at h
    split at h
    · obtain ⟨rfl, rfl⟩ := Prod.mk.inj (Option.some.inj h)
      exact .inr ⟨by simp [*], goes_finish (by simp [*])⟩
    · cases h
  | cancelled =>
    simp only [step] at h
    split at h
    · obtain ⟨rfl, rfl⟩ := Prod.mk.inj (Option.some.inj h)
      exact .inr ⟨by simp [*], goes_finish (by simp [*])⟩
    · cases h

theorem start_of_step {ct : Bytes} (h : c.step (.start ct) = some (c', o)) :
    c.run = .accepted ∧ c'.token = c.token ∧ c'.connectiontoken = ct ∧ c'.run ≠ .accepted ∧ c'.run ≠ .stopping ∧
      c'.disconnected = c.disconnected ∧ ∃ o', o = .register :: o' ∧ ∀ x ∈ o', ∃ m, x = .sent m := by
  simp only [step] at h
  split at h
  · split at h <;> cases h <;> refine ⟨‹_›, rfl, rfl, nofun, nofun, rfl, _, rfl, ?_⟩ <;> simp
  · cases h

end TCPServerConnection

/-! ### The table -/

namespace Agent
variable {a a' : Agent} {e : Event} {o : List Output} {i j k : Nat} {t : Bytes} {c c' : TCPServerConnection}
  {os : List TCPServerConnection.Effect}

/-- What the effects of a connection make of its server's table. -/
def connEntry (ct : Bytes) (j : Nat) (x : Option (Dict Bytes Nat)) :
    TCPServerConnection.Effect → Option (Dict Bytes Nat)
  | .register => x.map (·.set ct j)
  | .unregister => x.map (·.del ct)
  | _ => x

theorem serverTcpConnections_putConn : (a.putConn j c os).1.serverTcpConnections.get? t =
    if t = c.token then os.foldl (connEntry c.connectiontoken j) (a.serverTcpConnections.get? t)
    else a.serverTcpConnections.get? t := by
  suffices h : ∀ a : Agent, (os.foldl (applyConnEffect c j) a).serverTcpConnections.get? t =
      if t = c.token then os.foldl (connEntry c.connectiontoken j) (a.serverTcpConnections.get? t)
      else a.serverTcpConnections.get? t from h { a with conns := a.conns.set j c }
  induction os with
  | nil => simp
  | cons e os ih =>
    intro a
    rw [List.foldl_cons, ih, List.foldl_cons]
    by_cases ht : t = c.token
    · subst ht
      cases e <;> simp only [applyConnEffect, connEntry, if_true] <;> congr 1 <;> split <;> simp_all
    · cases e <;> simp only [applyConnEffect, ht, if_false] <;> split <;> simp_all [Dict.get?_set]

theorem foldl_connEntry {ct : Bytes} {x : Option (Dict Bytes Nat)} (h : ∀ x ∈ os, x ≠ .register ∧ x ≠ .unregister) :
    os.foldl (connEntry ct j) x = x := by
  induction os with
  | nil => rfl
  | cons e os ih =>
    have he : connEntry ct j x e = x := by
      have := h e List.mem_cons_self
      cases e <;> simp_all [connEntry]
    rw [List.foldl_cons, he, ih fun x hx => h x (List.mem_cons_of_mem _ hx)]

@[simp] theorem conns_putConn : (a.putConn j c os).1.conns = a.conns.set j c := by
  obtain ⟨table, h, -⟩ := putConn_frame a j c os
  rw [h]

theorem putConn_incoming (incoming : Incoming) :
    ({ a with incoming }.putConn j c os).1 = { (a.putConn j c os).1 with incoming } := by
  suffices h : ∀ a : Agent, os.foldl (applyConnEffect c j) { a with incoming } =
      { os.foldl (applyConnEffect c j) a with incoming } from h { a with conns := a.conns.set j c }
  induction os with
  | nil => exact fun _ => rfl
  | cons e os ih =>
    intro a
    rw [List.foldl_cons, List.foldl_cons, ← ih]
    congr 1
    cases e <;> simp only [applyConnEffect] <;> split <;> rfl

@[simp] theorem sessions_putConn : (a.putConn j c os).1.sessions = a.sessions := by
  obtain ⟨table, h, -⟩ := putConn_frame a j c os
  rw [h]

@[simp] theorem connId_putConn : (a.putConn j c os).1.connId = a.connId := by
  obtain ⟨table, h, -⟩ := putConn_frame a j c os
  rw [h]

@[simp] theorem servers_putConn : (a.putConn j c os).1.servers = a.servers := by
  obtain ⟨table, h, -⟩ := putConn_frame a j c os
  rw [h]

@[simp] theorem serverTcpConnections_contains_putConn :
    (a.putConn j c os).1.serverTcpConnections.contains t = a.serverTcpConnections.contains t := by
  obtain ⟨table, h, ht⟩ := putConn_frame a j c os
  rw [h, ht]

/-- The effects other than `register` make no entry. -/
theorem get?_of_foldl_connEntry {ct : Bytes} {x : Option (Dict Bytes Nat)} {table : Dict Bytes Nat} {key : Bytes}
    (hos : ∀ x ∈ os, x ≠ .register) (h : os.foldl (connEntry ct j) x = some table) (hk : table.get? key = some k) :
    ∃ table₀, x = some table₀ ∧ table₀.get? key = some k := by
  induction os generalizing x with
  | nil => exact ⟨table, h, hk⟩
  | cons e os ih =>
    obtain ⟨table₁, h₁, hk₁⟩ := ih (fun x hx => hos x (List.mem_cons_of_mem _ hx)) h
    have := hos e List.mem_cons_self
    cases e with
    | register => exact absurd rfl this
    | unregister =>
      obtain ⟨table₀, rfl, rfl⟩ := Option.map_eq_some_iff.1 h₁
      exact ⟨table₀, rfl, Dict.get?_of_get?_del hk₁⟩
    | _ => exact ⟨table₁, h₁, hk₁⟩

/-! ### What holds of the connections -/

/-- A session that listens, or has listened, under the token `t`. -/
def HasServer (ss : List Session) (t : Bytes) : Prop :=
  ∃ (i : Nat) (cmd : WSNConnect) (ts : TcpServer), ss[i]? = some ⟨cmd, .tcpServer ts⟩ ∧ ts.token = t ∧ ¬ ts.Pending

theorem hasServer_set {ss : List Session} {s s' : Session} (hs : ss[i]? = some s)
    (h : ∀ cmd ts, s = ⟨cmd, .tcpServer ts⟩ → ¬ ts.Pending →
      ∃ ts', s'.task = .tcpServer ts' ∧ ts'.token = ts.token ∧ ¬ ts'.Pending)
    (hh : HasServer ss t) : HasServer (ss.set i s') t := by
  obtain ⟨k, cmd, ts, hk, rfl, hp⟩ := hh
  by_cases hik : i = k
  · subst hik
    cases hs.symm.trans hk
    obtain ⟨ts', htask, htok, hp'⟩ := h cmd ts rfl hp
    exact ⟨i, s'.cmd, ts', by rw [List.getElem?_set_self (List.getElem?_eq_some_iff.1 hk).1, ← htask], htok, hp'⟩
  · exact ⟨k, cmd, ts, (List.getElem?_set_ne hik).trans hk, rfl, hp⟩

theorem hasServer_act (h : Act e a a' o) (hh : HasServer a.sessions t) : HasServer a'.sessions t := by
  cases change_of_act h with
  | put hm hq hs => exact hasServer_set hs (fun _ _ heq => by cases congrArg (·.task.branch) heq) hh
  | cancel hq hs =>
    refine hasServer_set hs (fun cmd ts heq hp => ?_) hh
    subst heq
    exact ⟨{ ts with cancelled := true }, rfl, rfl, hp⟩
  | create hm =>
    obtain ⟨k, cmd, ts, hk, h⟩ := hh
    exact ⟨k, cmd, ts, (List.getElem?_append_left (List.getElem?_eq_some_iff.1 hk).1).trans hk, h⟩
  | _ => exact hh

theorem hasServer_session {s s' : Session} {e : Session.Event} {os : List Effect} (hs : a.sessions[i]? = some s)
    (h : s.step e = some (s', os)) (hh : HasServer a.sessions t) : HasServer (a.putSession i s' os).1.sessions t := by
  rw [sessions_putSession]
  refine hasServer_set hs (fun cmd ts heq hp => ?_) hh
  have ht := (Session.step_eq_some h).2
  subst heq
  generalize s'.task = k' at ht
  generalize Session.taskEvent _ e = e' at ht
  cases ht with
  | tcpServer hts => exact ⟨_, rfl, TcpServer.token_of_step hts, (TcpServer.step_of_not_pending hp hts).1⟩

/-- The connections, the table and `process_incoming` agree. -/
structure Conns (a : Agent) : Prop where
  server : ∀ c ∈ a.conns, HasServer a.sessions c.token
  bound : ∀ c ∈ a.conns, a.serverTcpConnections.contains c.token = true
  fresh : ∀ {j : Nat} {c : TCPServerConnection}, a.conns[j]? = some c → c.run ≠ .accepted →
    ∃ n < a.connId, c.connectiontoken = connectionId n
  unique : ∀ {j k : Nat} {c c' : TCPServerConnection}, a.conns[j]? = some c → a.conns[k]? = some c' →
    c.run ≠ .accepted → c'.run ≠ .accepted → c.connectiontoken = c'.connectiontoken → j = k
  entry : ∀ {t : Bytes} {table : Dict Bytes Nat} {ct : Bytes} {j : Nat}, a.serverTcpConnections.get? t = some table →
    table.get? ct = some j → ∃ c, a.conns[j]? = some c ∧ c.token = t ∧ c.connectiontoken = ct ∧ c.run ≠ .accepted
  accepted : ∀ c ∈ a.conns, c.run = .accepted → c.disconnected = false
  stopping : ∀ c ∈ a.conns, c.run = .stopping → c.disconnected = true
  stops : ∀ {j : Nat}, a.incoming.stops? = some j →
    ∃ c, a.conns[j]? = some c ∧ c.disconnected = true ∧ c.run ≠ .accepted
  draining : ∀ {j : Nat} {data : Bytes}, a.incoming = .draining j data → ∃ c, a.conns[j]? = some c ∧ c.run ≠ .accepted

/-- A connection goes on without a new entry. -/
theorem Conns.follow (hp : Conns a) (hc : a.conns[j]? = some c) (hf : TCPServerConnection.Follows c c')
    (hst : c'.run = .stopping → c'.disconnected = true) (hos : ∀ x ∈ os, x ≠ .register) {incoming : Incoming}
    (h1 : ∀ k, incoming.stops? = some k → a.incoming.stops? = some k ∨ k = j ∧ c'.disconnected = true)
    (h2 : ∀ k data, incoming = .draining k data → a.incoming = .draining k data) :
    Conns { (a.putConn j c' os).1 with incoming } := by
  have hlt := (List.getElem?_eq_some_iff.1 hc).1
  have hmem := List.mem_of_getElem? hc
  -- a connection of the new list is an old one or `c'`
  have hset : ∀ {k : Nat} {d : TCPServerConnection}, (a.conns.set j c')[k]? = some d → d.run ≠ .accepted →
      ∃ d₀, a.conns[k]? = some d₀ ∧ d₀.run ≠ .accepted ∧ d₀.token = d.token ∧
        d₀.connectiontoken = d.connectiontoken := by
    intro k d hk hd
    rcases getElem?_set_cases hk with ⟨rfl, rfl⟩ | ⟨hne, hk⟩
    · exact ⟨c, hc, hf.started, hf.token.symm, hf.connectiontoken.symm⟩
    · exact ⟨d, hk, hd, rfl, rfl⟩
  have hback : ∀ {k : Nat} {d : TCPServerConnection}, a.conns[k]? = some d → d.run ≠ .accepted →
      ∃ d', (a.conns.set j c')[k]? = some d' ∧ d'.token = d.token ∧ d'.connectiontoken = d.connectiontoken ∧
        d'.run ≠ .accepted ∧ (d.disconnected = true → d'.disconnected = true) := by
    intro k d hk hd
    by_cases hjk : j = k
    · subst hjk
      cases hc.symm.trans hk
      exact ⟨c', List.getElem?_set_self hlt, hf.token, hf.connectiontoken, hf.run, hf.disconnected⟩
    · exact ⟨d, (List.getElem?_set_ne hjk).trans hk, rfl, rfl, hd, id⟩
  have htab : ∀ {t : Bytes} {table : Dict Bytes Nat} {ct : Bytes} {k : Nat},
      (a.putConn j c' os).1.serverTcpConnections.get? t = some table → table.get? ct = some k →
        ∃ table₀, a.serverTcpConnections.get? t = some table₀ ∧ table₀.get? ct = some k := by
    intro t table ct k h1 h2
    rw [serverTcpConnections_putConn] at h1
    split at h1
    · exact get?_of_foldl_connEntry hos h1 h2
    · exact ⟨table, h1, h2⟩
  refine ⟨fun d hd => ?_, fun d hd => ?_, fun {k d} hk hd => ?_, fun {k l d d'} hk hl hd hd' hct => ?_,
    fun {t table ct k} h1 h2 => ?_, fun d hd hrun => ?_, fun d hd hrun => ?_, fun {k} hk => ?_, fun {k data} hk => ?_⟩
  · simp only [conns_putConn, sessions_putConn] at hd ⊢
    rcases List.mem_or_eq_of_mem_set hd with hd | rfl
    · exact hp.server d hd
    · rw [hf.token]; exact hp.server c hmem
  · simp only [conns_putConn, serverTcpConnections_contains_putConn] at hd ⊢
    rcases List.mem_or_eq_of_mem_set hd with hd | rfl
    · exact hp.bound d hd
    · rw [hf.token]; exact hp.bound c hmem
  · simp only [conns_putConn, connId_putConn] at hk ⊢
    obtain ⟨d₀, hk₀, hd₀, -, hct⟩ := hset hk hd
    rw [← hct]
    exact hp.fresh hk₀ hd₀
  · simp only [conns_putConn] at hk hl
    obtain ⟨d₀, hk₀, hd₀, -, hct₀⟩ := hset hk hd
    obtain ⟨d₁, hl₁, hd₁, -, hct₁⟩ := hset hl hd'
    exact hp.unique hk₀ hl₁ hd₀ hd₁ (by rw [hct₀, hct₁, hct])
  · obtain ⟨table₀, h1, h2⟩ := htab h1 h2
    obtain ⟨d₀, hk₀, rfl, rfl, hd₀⟩ := hp.entry h1 h2
    obtain ⟨d, hk, htok, hct, hd, -⟩ := hback hk₀ hd₀
    exact ⟨d, by simpa using hk, htok, hct, hd⟩
  · simp only [conns_putConn] at hd
    rcases List.mem_or_eq_of_mem_set hd with hd | rfl
    · exact hp.accepted d hd hrun
    · exact absurd hrun hf.run
  · simp only [conns_putConn] at hd
    rcases List.mem_or_eq_of_mem_set hd with hd | rfl
    · exact hp.stopping d hd hrun
    · exact hst hrun
  · simp only [conns_putConn]
    rcases h1 k hk with hk | ⟨rfl, hd⟩
    · obtain ⟨d₀, hk₀, hdisc, hd₀⟩ := hp.stops hk
      obtain ⟨d, hk, -, -, hd, hdisc'⟩ := hback hk₀ hd₀
      exact ⟨d, hk, hdisc' hdisc, hd⟩
    · exact ⟨c', List.getElem?_set_self hlt, hd, hf.run⟩
  · simp only [conns_putConn]
    obtain ⟨d₀, hk₀, hd₀⟩ := hp.draining (h2 k data hk)
    obtain ⟨d, hk, -, -, hd, -⟩ := hback hk₀ hd₀
    exact ⟨d, hk, hd⟩

theorem not_register_of_sent (h : ∀ x ∈ os, ∃ m, x = .sent m) : ∀ x ∈ os, x ≠ .register ∧ x ≠ .unregister := by
  intro x hx
  obtain ⟨m, rfl⟩ := h x hx
  exact ⟨nofun, nofun⟩

/-- The next connection token is new. -/
theorem Conns.ne_next (hp : Conns a) (hk : a.conns[k]? = some c) (hrun : c.run ≠ .accepted) :
    c.connectiontoken ≠ connectionId a.connId := by
  intro heq
  obtain ⟨n, hn, h⟩ := hp.fresh hk hrun
  have := connectionId_inj (heq.symm.trans h)
  omega

theorem Conns.start (hp : Conns a) (hc : a.conns[j]? = some c)
    (h : c.step (.start (connectionId a.connId)) = some (c', os)) :
    Conns ({ a with connId := a.connId + 1 }.putConn j c' os).1 := by
  obtain ⟨hrun, htok, hct, hrun', hstop', hdisc, os', rfl, hos'⟩ := TCPServerConnection.start_of_step h
  have hlt := (List.getElem?_eq_some_iff.1 hc).1
  have hmem := List.mem_of_getElem? hc
  refine ⟨fun d hd => ?_, fun d hd => ?_, fun {k d} hk hd => ?_, fun {k l d d'} hk hl hd hd' heq => ?_,
    fun {t table ct k} h1 h2 => ?_, fun d hd hr => ?_, fun d hd hr => ?_, fun {k} hk => ?_, fun {k data} hk => ?_⟩
  · simp only [conns_putConn, sessions_putConn] at hd ⊢
    rcases List.mem_or_eq_of_mem_set hd with hd | rfl
    · exact hp.server d hd
    · rw [htok]; exact hp.server c hmem
  · simp only [conns_putConn, serverTcpConnections_contains_putConn] at hd ⊢
    rcases List.mem_or_eq_of_mem_set hd with hd | rfl
    · exact hp.bound d hd
    · rw [htok]; exact hp.bound c hmem
  · simp only [conns_putConn, connId_putConn] at hk ⊢
    rcases getElem?_set_cases hk with ⟨rfl, rfl⟩ | ⟨hne, hk⟩
    · exact ⟨a.connId, by omega, hct⟩
    · obtain ⟨n, hn, h⟩ := hp.fresh hk hd
      exact ⟨n, by omega, h⟩
  · simp only [conns_putConn] at hk hl
    rcases getElem?_set_cases hk with ⟨rfl, rfl⟩ | ⟨-, hk'⟩ <;> rcases getElem?_set_cases hl with ⟨rfl, rfl⟩ | ⟨-, hl'⟩
    · rfl
    · exact absurd (heq.symm.trans hct) (hp.ne_next hl' hd')
    · exact absurd (heq.trans hct) (hp.ne_next hk' hd)
    · exact hp.unique hk' hl' hd hd' heq
  · have hold : ∀ {table₀ : Dict Bytes Nat}, a.serverTcpConnections.get? t = some table₀ → table₀.get? ct = some k →
        ∃ d, (a.conns.set j c')[k]? = some d ∧ d.token = t ∧ d.connectiontoken = ct ∧ d.run ≠ .accepted := by
      intro table₀ h1 h2
      obtain ⟨d, hk, hd⟩ := hp.entry h1 h2
      have hne : j ≠ k := fun heq => by subst heq; cases hc.symm.trans hk; exact hd.2.2 hrun
      exact ⟨d, (List.getElem?_set_ne hne).trans hk, hd⟩
    simp only [serverTcpConnections_putConn] at h1
    simp only [conns_putConn]
    split at h1
    · rename_i ht
      rw [List.foldl_cons, foldl_connEntry (not_register_of_sent hos'), connEntry] at h1
      obtain ⟨table₀, h0, rfl⟩ := Option.map_eq_some_iff.1 h1
      rw [Dict.get?_set] at h2
      split at h2
      · cases h2
        exact ⟨c', List.getElem?_set_self hlt, ht.symm, by simp [*], hrun'⟩
      · exact hold h0 h2
    · exact hold h1 h2
  · simp only [conns_putConn] at hd
    rcases List.mem_or_eq_of_mem_set hd with hd | rfl
    · exact hp.accepted d hd hr
    · exact absurd hr hrun'
  · simp only [conns_putConn] at hd
    rcases List.mem_or_eq_of_mem_set hd with hd | rfl
    · exact hp.stopping d hd hr
    · exact absurd hr hstop'
  · simp only [conns_putConn, incoming_putConn] at hk ⊢
    obtain ⟨d, hk, hdisc, hd⟩ := hp.stops hk
    have hne : j ≠ k := fun heq => by subst heq; cases hc.symm.trans hk; exact hd hrun
    exact ⟨d, (List.getElem?_set_ne hne).trans hk, hdisc, hd⟩
  · simp only [conns_putConn, incoming_putConn] at hk ⊢
    obtain ⟨d, hk, hd⟩ := hp.draining hk
    have hne : j ≠ k := fun heq => by subst heq; cases hc.symm.trans hk; exact hd hrun
    exact ⟨d, (List.getElem?_set_ne hne).trans hk, hd⟩

theorem Conns.hasEntry (hp : Conns a) (h : a.HasEntry j) : ∃ c, a.conns[j]? = some c ∧ c.run ≠ .accepted := by
  obtain ⟨t, table, ct, h1, h2⟩ := h
  obtain ⟨c, hc, -, -, hrun⟩ := hp.entry h1 h2
  exact ⟨c, hc, hrun⟩

theorem with_incoming {incoming : Incoming} (h : a.incoming = incoming) : { a with incoming } = a := by
  subst h; rfl

/-- `process_incoming` stops connections that have started. -/
theorem Conns.started (hp : Conns a) (hc : a.conns[j]? = some c)
    (h : a.HasEntry j ∨ ∃ data, a.incoming = .draining j data) : c.run ≠ .accepted := by
  obtain ⟨d, hd, hrun⟩ : ∃ d, a.conns[j]? = some d ∧ d.run ≠ .accepted :=
    h.elim hp.hasEntry fun ⟨_, h⟩ => hp.draining h
  cases hc.symm.trans hd
  exact hrun

theorem Conns.act (hsend : e.isSendFailed = false) (hsv : Servers a) (hp : Conns a) (h : Act e a a' o) : Conns a' := by
  have hserver : ∀ {t}, HasServer a.sessions t → HasServer a'.sessions t := hasServer_act h
  cases h with
  | put | create | cancel => exact { hp with server := fun c hc => hserver (hp.server c hc) }
  | openFile | closeFile | delFile => exact { hp with }
  | @accept i cmd ts hs hl peername hx =>
    have hmem := List.mem_of_getElem? hs
    have hold : ∀ {k : Nat} {d : TCPServerConnection}, a.conns[k]? = some d →
        (a.conns ++ [{ token := ts.token, peername }])[k]? = some d :=
      fun hk => (List.getElem?_append_left (List.getElem?_eq_some_iff.1 hk).1).trans hk
    have hnew : ∀ {k : Nat} {d : TCPServerConnection},
        (a.conns ++ [{ token := ts.token, peername }])[k]? = some d → d.run ≠ .accepted → a.conns[k]? = some d := by
      intro k d hk hd
      rw [List.getElem?_append] at hk
      split at hk
      · exact hk
      · obtain ⟨_, rfl⟩ := List.getElem?_eq_some_iff.1 hk
        exact absurd (by simp) hd
    refine ⟨fun d hd => ?_, fun d hd => ?_, fun hk hd => hp.fresh (hnew hk hd) hd,
      fun hk hl hd hd' => hp.unique (hnew hk hd) (hnew hl hd') hd hd', fun h1 h2 => ?_, fun d hd hr => ?_,
      fun d hd hr => ?_, fun hk => ?_, fun hk => ?_⟩
    · rcases List.mem_append.1 hd with hd | hd
      · exact hp.server d hd
      · rw [List.mem_singleton.1 hd]
        exact ⟨i, cmd, ts, hs, rfl, (hsv.wf _ hmem ts rfl).listening hl⟩
    · rcases List.mem_append.1 hd with hd | hd
      · exact hp.bound d hd
      · have hfill : ts.isBound = true → a.serverTcpConnections.contains cmd.token = true := hsv.filled _ hmem
        rw [List.mem_singleton.1 hd, (hsv.fits _ hmem).2 ts.token rfl]
        exact hfill (by simp [TcpServer.isBound, hl])
    · obtain ⟨d, hk, hd⟩ := hp.entry h1 h2
      exact ⟨d, hold hk, hd⟩
    · rcases List.mem_append.1 hd with hd | hd
      · exact hp.accepted d hd hr
      · rw [List.mem_singleton.1 hd]
    · rcases List.mem_append.1 hd with hd | hd
      · exact hp.stopping d hd hr
      · rw [List.mem_singleton.1 hd] at hr; cases hr
    · obtain ⟨d, hk, hd⟩ := hp.stops hk
      exact ⟨d, hold hk, hd⟩
    · obtain ⟨d, hk, hd⟩ := hp.draining hk
      exact ⟨d, hold hk, hd⟩
  | start hc hx h => exact hp.start hc h
  | @conn j c c' os hc e' hx he h =>
    have hs : e' ≠ .sendFailed := by rintro rfl; rw [hx] at hsend; cases hsend
    have : Conns { (a.putConn j c' os).1 with incoming := a.incoming } := by
      rcases TCPServerConnection.goes_of_step he hs h with ⟨-, hst, rfl, rfl⟩ | ⟨-, hg⟩
      · have hf : TCPServerConnection.Follows c { c with run := .done, closed := true } :=
          ⟨rfl, rfl, rfl, by simp [hst], by simp, id, fun _ => rfl⟩
        exact hp.follow hc hf (by simp) (by simp) (fun _ => .inl) fun _ _ => id
      · exact hp.follow hc hg.toFollows hg.stopping (fun x hx => (hg.effects x hx).1) (fun _ => .inl) fun _ _ => id
    rwa [with_incoming (by simp)] at this
  | drain hj ha data =>
    exact { hp with
      stops := by simp [Incoming.stops?]
      draining := fun h => by cases h; exact hp.hasEntry hj }
  | @beginStop j c hc hj ha incoming hd hi =>
    refine hp.follow hc (TCPServerConnection.follows_beginStop (hp.started hc hj)) (by simp)
      (fun x hx => (not_register_of_sent TCPServerConnection.effects_beginStop x hx).1) (fun k hk => ?_)
      (fun k data hk => absurd hk (hd k data))
    rw [hi] at hk
    split at hk <;> cases hk
    exact .inr ⟨rfl, by simp⟩
  | @endStop j c hc ha sent hx =>
    obtain ⟨d, hd, hdisc, hrun⟩ := hp.stops ha
    cases hc.symm.trans hd
    have hos : ∀ x ∈ (c.endStop sent).2, x ≠ .register := by cases sent <;> simp [TCPServerConnection.endStop]
    rw [putConn_incoming]
    exact hp.follow hc (TCPServerConnection.follows_endStop hrun sent) (fun _ => hdisc) hos
      (by simp [Incoming.stops?]) (by simp)
  | other incoming hi hd =>
    exact { hp with
      stops := fun h => hp.stops (hi ▸ h)
      draining := fun h => hp.draining (hd _ _ h) }

theorem Conns.session (hp : Conns a) {s s' : Session} {e : Session.Event} {os : List Effect}
    (hs : a.sessions[i]? = some s)
    (h : s.step e = some (s', os)) : Conns (a.putSession i s' os).1 where
  server c hc := hasServer_session hs h (hp.server c (by rwa [conns_putSession] at hc))
  bound c hc := contains_serverTcpConnections_putSession.2 (.inl (hp.bound c (by rwa [conns_putSession] at hc)))
  fresh hk hd := by
    rw [conns_putSession] at hk
    rw [connId_putSession]
    exact hp.fresh hk hd
  unique hk hl := by
    rw [conns_putSession] at hk hl
    exact hp.unique hk hl
  entry h1 h2 := by
    rw [serverTcpConnections_putSession] at h1
    rw [conns_putSession]
    split at h1
    · cases h1; cases h2
    · exact hp.entry h1 h2
  accepted c hc := hp.accepted c (by rwa [conns_putSession] at hc)
  stopping c hc := hp.stopping c (by rwa [conns_putSession] at hc)
  stops hk := by
    rw [incoming_putSession] at hk
    rw [conns_putSession]
    exact hp.stops hk
  draining hk := by
    rw [incoming_putSession] at hk
    rw [conns_putSession]
    exact hp.draining hk

/-! ### Stopped connections -/

/-- The connection is in the table of its server. -/
def Entered (a : Agent) (j : Nat) (c : TCPServerConnection) : Prop :=
  ∃ table, a.serverTcpConnections.get? c.token = some table ∧ table.get? c.connectiontoken = some j

/-- A connection of the server `t` leaves the table by a `stop`, and has left it when no `stop` is under way. -/
structure Stops (a : Agent) (t : Bytes) : Prop where
  entered : ∀ {j : Nat} {c : TCPServerConnection}, a.conns[j]? = some c → c.token = t → c.run ≠ .accepted →
    a.Entered j c ∨ c.closed = true ∧ c.disconnected = true
  gone : ∀ {j : Nat} {c : TCPServerConnection}, a.conns[j]? = some c → c.token = t → c.disconnected = true →
    ¬ a.Entered j c ∨ c.run = .stopping ∨ a.incoming.stops? = some j

theorem entered_putConn {d : TCPServerConnection} (h : ∀ x ∈ os, x ≠ .register ∧ x ≠ .unregister) :
    (a.putConn j c os).1.Entered k d ↔ a.Entered k d := by
  simp only [Entered, serverTcpConnections_putConn, foldl_connEntry h, ite_self]

theorem entered_putConn_unregister {d : TCPServerConnection} : (a.putConn j c [.unregister]).1.Entered k d ↔
    a.Entered k d ∧ ¬ (d.token = c.token ∧ d.connectiontoken = c.connectiontoken) := by
  simp only [Entered, serverTcpConnections_putConn, List.foldl_cons, List.foldl_nil, connEntry]
  by_cases ht : d.token = c.token
  · rw [if_pos ht]
    cases a.serverTcpConnections.get? d.token <;> simp [Dict.get?_del, ht]
    tauto
  · simp [ht]

theorem entered_putConn_register {d : TCPServerConnection} (h : ∀ x ∈ os, x ≠ .register ∧ x ≠ .unregister)
    (hd : ¬ (d.token = c.token ∧ d.connectiontoken = c.connectiontoken)) :
    (a.putConn j c (.register :: os)).1.Entered k d ↔ a.Entered k d := by
  simp only [Entered, serverTcpConnections_putConn, List.foldl_cons, foldl_connEntry h, connEntry]
  by_cases ht : d.token = c.token
  · have hct : d.connectiontoken ≠ c.connectiontoken := fun hct => hd ⟨ht, hct⟩
    rw [if_pos ht]
    cases a.serverTcpConnections.get? d.token <;> simp [Dict.get?_set, hct]
  · simp [ht]

/-- The connection `j` goes on, and the table is left alone. -/
theorem Stops.goes (hp : Stops a t) (hj : a.conns[j]? = some c) (hf : TCPServerConnection.Follows c c')
    (hos : ∀ x ∈ os, x ≠ .register ∧ x ≠ .unregister) {incoming : Incoming}
    (hi : ∀ k, a.incoming.stops? = some k → incoming.stops? = some k)
    (hst : c'.disconnected = true →
      c.disconnected = true ∧ c.run ≠ .stopping ∨ c'.run = .stopping ∨ incoming.stops? = some j) :
    Stops { (a.putConn j c' os).1 with incoming } t := by
  have hent : ∀ {k : Nat} {d : TCPServerConnection},
      Entered { (a.putConn j c' os).1 with incoming } k d ↔ a.Entered k d := entered_putConn hos
  constructor
  · intro k d hk ht hd
    simp only [conns_putConn] at hk
    rw [hent]
    rcases getElem?_set_cases hk with ⟨rfl, rfl⟩ | ⟨hne, hk⟩
    · have := hp.entered hj (hf.token ▸ ht) hf.started
      rw [Entered, hf.token, hf.connectiontoken]
      exact this.imp id fun h => ⟨hf.closed h.1, hf.disconnected h.2⟩
    · exact hp.entered hk ht hd
  · intro k d hk ht hd
    simp only [conns_putConn] at hk
    rw [hent]
    rcases getElem?_set_cases hk with ⟨rfl, rfl⟩ | ⟨hne, hk⟩
    · rcases hst hd with ⟨hd, hrun⟩ | h | h
      · rcases hp.gone hj (hf.token ▸ ht) hd with h | h | h
        · rw [Entered, hf.token, hf.connectiontoken]; exact .inl h
        · exact absurd h hrun
        · exact .inr (.inr (hi _ h))
      · exact .inr (.inl h)
      · exact .inr (.inr h)
    · exact (hp.gone hk ht hd).imp id (Or.imp id (hi k))

/-- The connection `j` takes itself out of the table. -/
theorem Stops.unregister (hc : Conns a) (hp : Stops a t) (hj : a.conns[j]? = some c)
    (hf : TCPServerConnection.Follows c c')
    (hcl : c'.closed = true) (hdisc : c'.disconnected = true) {incoming : Incoming}
    (hi : ∀ k, k ≠ j → a.incoming.stops? = some k → incoming.stops? = some k) :
    Stops { (a.putConn j c' [.unregister]).1 with incoming } t := by
  have hent : ∀ {k : Nat} {d : TCPServerConnection}, Entered { (a.putConn j c' [.unregister]).1 with incoming } k d ↔
      a.Entered k d ∧ ¬ (d.token = c'.token ∧ d.connectiontoken = c'.connectiontoken) := entered_putConn_unregister
  constructor
  · intro k d hk ht hd
    simp only [conns_putConn] at hk
    rcases getElem?_set_cases hk with ⟨rfl, rfl⟩ | ⟨hne, hk⟩
    · exact .inr ⟨hcl, hdisc⟩
    · rw [hent]
      refine (hp.entered hk ht hd).imp (fun h => ⟨h, fun heq => hne ?_⟩) id
      exact hc.unique hk hj hd hf.started (heq.2.trans hf.connectiontoken)
  · intro k d hk ht hd
    simp only [conns_putConn] at hk
    rw [hent]
    rcases getElem?_set_cases hk with ⟨rfl, rfl⟩ | ⟨hne, hk⟩
    · exact .inl fun h => h.2 ⟨rfl, rfl⟩
    · exact (hp.gone hk ht hd).imp (fun h h' => h h'.1) (Or.imp id (hi k hne))

theorem Stops.act (hsend : e.isSendFailed = false) (hc : Conns a) (hp : Stops a t) (h : Act e a a' o) : Stops a' t := by
  cases h with
  | put | create | cancel | openFile | closeFile | delFile => exact ⟨hp.entered, hp.gone⟩
  | @accept i cmd ts hs hl peername hx =>
    have hold : ∀ {k : Nat} {d : TCPServerConnection},
        (a.conns ++ [{ token := ts.token, peername }])[k]? = some d →
        d.run ≠ .accepted ∨ d.disconnected = true → a.conns[k]? = some d := by
      intro k d hk hd
      rw [List.getElem?_append] at hk
      split at hk
      · exact hk
      · obtain ⟨_, rfl⟩ := List.getElem?_eq_some_iff.1 hk
        exact absurd hd (by simp)
    exact ⟨fun hk ht hd => hp.entered (hold hk (.inl hd)) ht hd, fun hk ht hd => hp.gone (hold hk (.inr hd)) ht hd⟩
  | @start j c c' os hj hx h =>
    obtain ⟨hrun, htok, hct, hrun', -, hdisc, os', rfl, hos'⟩ := TCPServerConnection.start_of_step h
    have hos'' := not_register_of_sent hos'
    have hcmem := List.mem_of_getElem? hj
    -- the other connections have other tokens
    have hent : ∀ {k : Nat} {d : TCPServerConnection}, a.conns[k]? = some d → d.run ≠ .accepted →
        (({ a with connId := a.connId + 1 }.putConn j c' (.register :: os')).1.Entered k d ↔ a.Entered k d) :=
      fun hk hd => entered_putConn_register hos'' fun heq => hc.ne_next hk hd (heq.2.trans hct)
    constructor
    · intro k d hk ht hd
      simp only [conns_putConn] at hk
      rcases getElem?_set_cases hk with ⟨rfl, rfl⟩ | ⟨hne, hk⟩
      · obtain ⟨table, htable⟩ := Dict.contains_iff.1 (hc.bound c hcmem)
        refine .inl ⟨table.set d.connectiontoken k, ?_, by simp⟩
        simp [serverTcpConnections_putConn, foldl_connEntry hos'', connEntry, htok, htable]
      · exact (hp.entered hk ht hd).imp (hent hk hd).2 id
    · intro k d hk ht hd
      simp only [conns_putConn] at hk
      rw [incoming_putConn]
      rcases getElem?_set_cases hk with ⟨rfl, rfl⟩ | ⟨hne, hk⟩
      · rw [hdisc, hc.accepted c hcmem hrun] at hd
        cases hd
      · have hd' : d.run ≠ .accepted := fun h => by rw [hc.accepted d (List.mem_of_getElem? hk) h] at hd; cases hd
        exact (hp.gone hk ht hd).imp (mt (hent hk hd').1) id
  | @conn j c c' os hj e' hx he h =>
    have hs : e' ≠ .sendFailed := by rintro rfl; rw [hx] at hsend; cases hsend
    have : Stops { (a.putConn j c' os).1 with incoming := a.incoming } t := by
      rcases TCPServerConnection.goes_of_step he hs h with ⟨-, hst, rfl, rfl⟩ | ⟨hst, hg⟩
      · have hf : TCPServerConnection.Follows c { c with run := .done, closed := true } :=
          ⟨rfl, rfl, rfl, by simp [hst], by simp, id, fun _ => rfl⟩
        exact hp.unregister hc hj hf rfl (hc.stopping c (List.mem_of_getElem? hj) hst) fun _ _ => id
      · refine hp.goes hj hg.toFollows hg.effects (fun _ => id) fun hd => ?_
        rcases hg.stop with h | h
        · exact .inr (.inl h)
        · exact .inl ⟨h ▸ hd, hst⟩
    rwa [with_incoming (by simp)] at this
  | drain hj ha data =>
      exact ⟨hp.entered, fun h1 h2 h3 => (hp.gone h1 h2 h3).imp id (Or.imp id fun h => by rw [ha] at h; cases h)⟩
  | @beginStop j c hj he ha incoming hd hi =>
    refine hp.goes hj (TCPServerConnection.follows_beginStop (hc.started hj he))
      (not_register_of_sent TCPServerConnection.effects_beginStop) (fun k hk => by rw [ha] at hk; cases hk) fun _ => ?_
    cases hdisc : c.disconnected with
    | false => exact .inr (.inr (by simp [hi, hdisc]))
    | true =>
      by_cases hst : c.run = .stopping
      · exact .inr (.inl (by simpa using hst))
      · exact .inl ⟨rfl, hst⟩
  | @endStop j c hj ha sent hx =>
    obtain ⟨d, hd, hdisc, hrun⟩ := hc.stops ha
    cases hj.symm.trans hd
    obtain rfl : sent = true := by rw [hsend] at hx; simpa using hx
    rw [putConn_incoming]
    refine hp.unregister hc hj (TCPServerConnection.follows_endStop hrun true) rfl hdisc fun k hk h => ?_
    exact absurd (Option.some.inj (h.symm.trans ha)) hk
  | other incoming hi hd => exact ⟨hp.entered, fun h1 h2 h3 => by rw [hi]; exact hp.gone h1 h2 h3⟩

/-- The table of a server is not reset while it has connections. -/
theorem Stops.session {i₀ : Nat} {s s' : Session} {e : Session.Event} {os : List Effect} (hsv : Servers a)
    (hc : Conns a)
    (hsole : Sole a.sessions t i₀) (hp : Stops a t) (hs : a.sessions[i]? = some s) (h : s.step e = some (s', os)) :
    Stops (a.putSession i s' os).1 t := by
  have hcmd := (Session.step_eq_some h).1
  by_cases hreset : t = s'.cmd.token ∧ .resetTcpConnections ∈ os
  · -- a connection of `t` would have a server past the reset, and this would be the session that resets
    have hno : ∀ c ∈ a.conns, c.token ≠ t := by
      rintro c hmem rfl
      obtain ⟨k, cmd, ts, hk, hts, hpend⟩ := hc.server c hmem
      have htok := (hsv.fits _ (List.mem_of_getElem? hk)).2 ts.token rfl
      have hik : i = k := (hsole i s hs (by rw [← hcmd, hreset.1])).trans (hsole k _ hk (by rw [← htok, hts])).symm
      subst hik
      cases hs.symm.trans hk
      have ht := (Session.step_eq_some h).2
      generalize s'.task = k' at ht
      generalize Session.taskEvent _ e = e' at ht
      cases ht with
      | tcpServer hstep =>
        rcases (TcpServer.step_of_not_pending hpend hstep).2 _ hreset.2 with ⟨c, h⟩ | h <;> cases h
    exact ⟨fun hk ht => absurd ht (hno _ (List.mem_of_getElem? (by rwa [conns_putSession] at hk))),
      fun hk ht => absurd ht (hno _ (List.mem_of_getElem? (by rwa [conns_putSession] at hk)))⟩
  · have hent : ∀ {k : Nat} {d : TCPServerConnection}, d.token = t →
        ((a.putSession i s' os).1.Entered k d ↔ a.Entered k d) := by
      rintro k d rfl
      rw [Entered, serverTcpConnections_putSession, if_neg hreset, Entered]
    constructor
    · intro k d hk ht hd
      rw [conns_putSession] at hk
      rw [hent ht]
      exact hp.entered hk ht hd
    · intro k d hk ht hd
      rw [conns_putSession] at hk
      rw [hent ht, incoming_putSession]
      exact hp.gone hk ht hd

/-- What holds of the connections after any run in which no send fails. -/
structure ConnInv (a : Agent) : Prop where
  servers : Servers a
  conns : Conns a
  stops : ∀ t i, Sole a.sessions t i → Stops a t

theorem ConnInv.act (hsend : e.isSendFailed = false) (hp : ConnInv a) (h : Act e a a' o) : ConnInv a' where
  servers := hp.servers.act h
  conns := hp.conns.act hsend hp.servers h
  stops t i hsole := (hp.stops t i ((grows_of_act h).sole hsole)).act hsend hp.conns h

theorem ConnInv.session {s s' : Session} {e : Session.Event} {os : List Effect} (hp : ConnInv a)
    (hs : a.sessions[i]? = some s)
    (h : s.step e = some (s', os)) : ConnInv (a.putSession i s' os).1 where
  servers := hp.servers.session hs h
  conns := hp.conns.session hs h
  stops t k hsole :=
    have hsole := (grows_putSession (m := none) hs h).sole hsole
    (hp.stops t k hsole).session hp.servers hp.conns hsole hs h

theorem ConnInv.step (hsend : e.isSendFailed = false) (hp : ConnInv a) (h : a.step e = some (a', o)) : ConnInv a' :=
  preserved (fun hs _ h hp => hp.session hs h) (fun h hp => hp.act hsend h) h hp

theorem ConnInv.init (full : Bool) (info : WSNGetInfoReply) : ConnInv (init full info) where
  servers := .init full info
  conns := ⟨fun _ h => absurd h List.not_mem_nil, fun _ h => absurd h List.not_mem_nil,
    fun h => absurd (List.mem_of_getElem? h) List.not_mem_nil, fun h =>
      absurd (List.mem_of_getElem? h) List.not_mem_nil,
    nofun, fun _ h => absurd h List.not_mem_nil, fun _ h => absurd h List.not_mem_nil, nofun, nofun⟩
  stops _ _ _ := ⟨fun h => absurd (List.mem_of_getElem? h) List.not_mem_nil,
    fun h => absurd (List.mem_of_getElem? h) List.not_mem_nil⟩

end Agent

end Wsnet
