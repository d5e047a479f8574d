import Wsnet.Agent.CloseServer
import Wsnet.Agent.Hosting

/-!
# The tokens of the connections

`get_connection_id` is called by the constructor of a connection alone, so the tokens it returns in a
run are those with which connections start. Where a connection's token or an entry of a server's
table comes from is an invariant of every run, failing sends included: from the start of that very
connection (`Uses`).
-/

namespace Wsnet

namespace TCPServerConnection
variable {c c' : TCPServerConnection} {e : Event} {o : List Effect}

/-- Behind its start a connection makes no new entry. -/
theorem not_register_of_step (he : ∀ ct, e ≠ .start ct) (h : c.step e = some (c', o)) :
    Follows c c' ∧ ∀ x ∈ o, x ≠ .register := by
  by_cases hs : e = .sendFailed
  · subst hs
    simp only [step] at h
    split at h
    · obtain ⟨rfl, rfl⟩ := Prod.mk.inj (Option.some.inj h)
      have hg := goes_finish (c := c) (by simp [*])
      exact ⟨hg.toFollows, fun x hx => (hg.effects x hx).1⟩
    · obtain ⟨rfl, rfl⟩ := Prod.mk.inj (Option.some.inj h)
      have hg := goes_finish (c := c) (by simp [*])
      exact ⟨hg.toFollows, fun x hx => (hg.effects x hx).1⟩
    · cases h
      exact ⟨⟨rfl, rfl, rfl, by simp [*], by simp, id, fun _ => rfl⟩, by simp⟩
    · cases h
  · rcases goes_of_step he hs h with ⟨-, hrun, rfl, rfl⟩ | ⟨-, hg⟩
    · exact ⟨⟨rfl, rfl, rfl, by simp [hrun], by simp, id, fun _ => rfl⟩, by simp⟩
    · exact ⟨hg.toFollows, fun x hx => (hg.effects x hx).1⟩

end TCPServerConnection

namespace Agent
variable {full : Bool} {info : WSNGetInfoReply} {a a' a₁ : Agent} {e : Event} {es : List Event} {o os : List Output}
  {j k : Nat} {ct : Bytes}

/-! ### The tokens of a run -/

def getConnectionId (a : Agent) : Bytes × Agent := (connectionId a.connId, { a with connId := a.connId + 1 })

/-- The step in which `get_connection_id` is called, and what it returns. -/
def Event.connectionId? : Event → Option Bytes
  | .conn _ (.start ct) => some ct
  | _ => none

/-- What `get_connection_id` returned in the steps `es`. -/
def connectionIds (es : List Event) : List Bytes := es.filterMap Event.connectionId?

theorem Event.connectionId?_eq_some : e.connectionId? = some ct ↔ ∃ j, e = .conn j (.start ct) := by
  constructor
  · intro h
    unfold Event.connectionId? at h
    split at h <;> cases h
    exact ⟨_, rfl⟩
  · rintro ⟨j, rfl⟩
    rfl

theorem mem_connectionIds (h : .conn j (.start ct) ∈ es) : ct ∈ connectionIds es :=
  List.mem_filterMap.2 ⟨_, h, rfl⟩

/-- The constructor of a connection, and its `run` up to the first await. -/
theorem start_of_step (h : a.step (.conn j (.start ct)) = some (a', o)) : ∃ c c' os,
    a.conns[j]? = some c ∧ ct = a.getConnectionId.1 ∧ c.step (.start ct) = some (c', os) ∧
      a' = (a.getConnectionId.2.putConn j c' os).1 ∧ o = os.map (.conn j) := by
  simp only [step] at h
  split at h
  · split at h
    · obtain ⟨⟨c', os⟩, hc, heq⟩ := Option.map_eq_some_iff.1 h
      cases heq
      exact ⟨_, c', os, ‹_›, ‹_›, hc, rfl, rfl⟩
    · cases h
  · cases h

theorem connId_of_step (h : a.step e = some (a', o)) :
    a'.connId = a.connId + e.connectionId?.toList.length ∧ ∀ ct, e.connectionId? = some ct → ct = connectionId a.connId := by
  cases hid : e.connectionId? with
  | some ct =>
    obtain ⟨j, rfl⟩ := Event.connectionId?_eq_some.1 hid
    obtain ⟨c, c', os, -, hct, -, rfl, -⟩ := start_of_step h
    refine ⟨by simp [getConnectionId], fun ct' hct' => ?_⟩
    cases hct'
    exact hct
  | none =>
    refine ⟨?_, nofun⟩
    show a'.connId = a.connId
    rcases step_cases h with ⟨i, e', s, s', o', -, -, -, -, heq⟩ | ⟨-, h⟩
    · exact (congrArg (fun r => r.1.connId) heq).trans connId_putSession
    · refine h.state_preserve (P := fun a' => a'.connId = a.connId) (fun hact heq => ?_) rfl
      cases hact with
      | start _ hx =>
        subst hx
        cases hid
      | _ => simpa only [connId_putConn] using heq

/-- The tokens of a run are the printed counter values, one after another. -/
structure Counted (es : List Event) (a : Agent) : Prop where
  connId : a.connId = 10 + (connectionIds es).length
  ids : connectionIds es = (List.range (connectionIds es).length).map fun n => connectionId (10 + n)

theorem Counted.step (hp : Counted es a) (h : a.step e = some (a', o)) : Counted (es ++ [e]) a' := by
  obtain ⟨hconn, hct⟩ := connId_of_step h
  have happ : connectionIds (es ++ [e]) = connectionIds es ++ e.connectionId?.toList := by
    cases hid : e.connectionId? <;> simp [connectionIds, hid]
  refine ⟨?_, ?_⟩
  · rw [hconn, hp.connId, happ, List.length_append]
    omega
  · rw [happ]
    cases hid : e.connectionId? with
    | none => simpa using hp.ids
    | some ct =>
      have hlast : ct = connectionId (10 + (connectionIds es).length) := by rw [hct ct hid, hp.connId]
      rw [Option.toList_some, List.length_append, List.length_singleton, List.range_succ, List.map_append, ← hp.ids,
        hlast]
      rfl

theorem counted_of_run (h : Run step (init full info) es a os) : Counted es a :=
  h.history_invariant_of (P := fun es a _ => Counted es a) (A := fun _ => True) (fun _ hp hs => hp.step hs)
    (fun _ _ => trivial) ⟨rfl, rfl⟩

theorem Counted.nodup (hp : Counted es a) : (connectionIds es).Nodup := by
  rw [hp.ids]
  refine List.nodup_range.map fun m n h => ?_
  have := connectionId_inj h
  omega

theorem Counted.length_eq (hp : Counted es a) (hn : (connectionIds es).length < 10 ^ 16 - 10) (h : ct ∈ connectionIds es) :
    ct.length = 16 := by
  rw [hp.ids] at h
  obtain ⟨n, hn', rfl⟩ := List.mem_map.1 h
  rw [List.mem_range] at hn'
  exact length_connectionId (by omega)

/-! ### Who uses a token -/

/-- `ct` is the token of the connection `j`, or a key under which a table of connections has it. -/
def Uses (a : Agent) (j : Nat) (ct : Bytes) : Prop :=
  (∃ c, a.conns[j]? = some c ∧ c.run ≠ .accepted ∧ c.connectiontoken = ct) ∨
    ∃ t table, a.serverTcpConnections.get? t = some table ∧ table.get? ct = some j

/-- A connection goes on, and makes no entry. -/
theorem uses_putConn {c c' : TCPServerConnection} {os : List TCPServerConnection.Effect} (hc : a.conns[k]? = some c)
    (hct : c'.connectiontoken = c.connectiontoken) (hrun : c'.run ≠ .accepted → c.run ≠ .accepted)
    (hos : ∀ x ∈ os, x ≠ .register) (h : (a.putConn k c' os).1.Uses j ct) : a.Uses j ct := by
  rcases h with ⟨d, hd, hd', rfl⟩ | ⟨t, table, ht, hj⟩
  · rw [conns_putConn] at hd
    rcases getElem?_set_cases hd with ⟨rfl, rfl⟩ | ⟨-, hd⟩
    · exact .inl ⟨c, hc, hrun hd', hct.symm⟩
    · exact .inl ⟨d, hd, hd', rfl⟩
  · rw [serverTcpConnections_putConn] at ht
    split at ht
    · obtain ⟨table₀, h0, hj⟩ := get?_of_foldl_connEntry hos ht hj
      exact .inr ⟨t, table₀, h0, hj⟩
    · exact .inr ⟨t, table, ht, hj⟩

theorem uses_start {c c' : TCPServerConnection} {os : List TCPServerConnection.Effect} {id : Bytes}
    (h : c.step (.start id) = some (c', os)) (hu : (a.putConn k c' os).1.Uses j ct) :
    a.Uses j ct ∨ j = k ∧ ct = id := by
  obtain ⟨-, -, hct, -, -, -, os', rfl, hos'⟩ := TCPServerConnection.start_of_step h
  rcases hu with ⟨d, hd, hd', rfl⟩ | ⟨t, table, ht, hj⟩
  · rw [conns_putConn] at hd
    rcases getElem?_set_cases hd with ⟨rfl, rfl⟩ | ⟨-, hd⟩
    · exact .inr ⟨rfl, hct⟩
    · exact .inl (.inl ⟨d, hd, hd', rfl⟩)
  · rw [serverTcpConnections_putConn] at ht
    split at ht
    · rw [List.foldl_cons, foldl_connEntry (not_register_of_sent hos'), connEntry] at ht
      obtain ⟨table₀, h0, rfl⟩ := Option.map_eq_some_iff.1 ht
      rw [Dict.get?_set] at hj
      split at hj
      · cases hj
        exact .inr ⟨rfl, ‹ct = _›.trans hct⟩
      · exact .inl (.inr ⟨t, table₀, h0, hj⟩)
    · exact .inl (.inr ⟨t, table, ht, hj⟩)

theorem uses_act (h : Act e a a' o) (hu : a'.Uses j ct) : a.Uses j ct ∨ e = .conn j (.start ct) := by
  cases h with
  | put | create | cancel | openFile | closeFile | delFile | drain | other => exact .inl hu
  | accept hs hl peername hx =>
    refine .inl (hu.imp (fun ⟨c, hc, hrun, hct⟩ => ⟨c, ?_, hrun, hct⟩) id)
    rw [List.getElem?_append] at hc
    split at hc
    · exact hc
    · obtain ⟨_, rfl⟩ := List.getElem?_eq_some_iff.1 hc
      exact absurd (by simp) hrun
  | start hc hx h =>
    refine (uses_start h hu).imp id ?_
    rintro ⟨rfl, rfl⟩
    exact hx
  | conn hc hx he h =>
    obtain ⟨hf, hos⟩ := TCPServerConnection.not_register_of_step he h
    exact .inl (uses_putConn hc hf.connectiontoken (fun _ => hf.started) hos hu)
  | @beginStop k c hc =>
    refine .inl (uses_putConn hc (by simp) (by simp) (fun x hx => ?_) hu)
    exact (not_register_of_sent TCPServerConnection.effects_beginStop x hx).1
  | @endStop k c hc _ sent =>
    have hos : ∀ x ∈ (c.endStop sent).2, x ≠ .register := by cases sent <;> simp [TCPServerConnection.endStop]
    have hct : (c.endStop sent).1.connectiontoken = c.connectiontoken := rfl
    exact .inl (uses_putConn (a := { a with incoming := .idle }) hc hct id hos hu)

theorem uses_of_step (h : a.step e = some (a', o)) (hu : a'.Uses j ct) : a.Uses j ct ∨ e = .conn j (.start ct) := by
  revert hu
  refine preserved (P := fun a' => a'.Uses j ct → a.Uses j ct ∨ e = .conn j (.start ct)) (fun _ _ _ ih hu => ih ?_)
    (fun hact ih hu => ?_) h .inl
  · -- a session may only reset a table
    rcases hu with ⟨c, hc, hrun⟩ | ⟨t, table, ht, hj⟩
    · rw [conns_putSession] at hc
      exact .inl ⟨c, hc, hrun⟩
    · rw [serverTcpConnections_putSession] at ht
      split at ht
      · cases ht
        cases hj
      · exact .inr ⟨t, table, ht, hj⟩
  · exact (uses_act hact hu).elim ih .inr

theorem uses_of_run (h : Run step (init full info) es a os) (hu : a.Uses j ct) : .conn j (.start ct) ∈ es := by
  refine h.history_invariant_of (P := fun es a _ => ∀ j ct, a.Uses j ct → .conn j (.start ct) ∈ es)
    (A := fun _ => True) (fun _ hp hs j ct hu => ?_) (fun _ _ => trivial) (fun j ct hu => ?_) j ct hu
  · rcases uses_of_step hs hu with hu | rfl
    · exact List.mem_append_left _ (hp j ct hu)
    · exact List.mem_append_right _ List.mem_cons_self
  · rcases hu with ⟨c, hc, -⟩ | ⟨t, table, ht, -⟩
    · exact absurd (List.mem_of_getElem? hc) List.not_mem_nil
    · cases ht

/-! ### The table of a connection's server -/

/-- Every connection has a table to enter. -/
structure Bound (a : Agent) : Prop where
  servers : Servers a
  bound : ∀ c ∈ a.conns, a.serverTcpConnections.contains c.token = true

theorem Bound.putConn (hp : Bound a) {c c' : TCPServerConnection} {os : List TCPServerConnection.Effect}
    (hc : a.conns[k]? = some c) (htok : c'.token = c.token) :
    ∀ d ∈ (a.putConn k c' os).1.conns, (a.putConn k c' os).1.serverTcpConnections.contains d.token = true := by
  intro d hd
  rw [conns_putConn] at hd
  rw [serverTcpConnections_contains_putConn]
  rcases List.mem_or_eq_of_mem_set hd with hd | rfl
  · exact hp.bound d hd
  · rw [htok]
    exact hp.bound c (List.mem_of_getElem? hc)

theorem Bound.act (hp : Bound a) (h : Act e a a' o) : Bound a' := by
  refine ⟨hp.servers.act h, ?_⟩
  cases h with
  | put | create | cancel | openFile | closeFile | delFile | drain | other => exact hp.bound
  | @accept i cmd t hs hl peername hx =>
    intro d hd
    have hmem := List.mem_of_getElem? hs
    rcases List.mem_append.1 hd with hd | hd
    · exact hp.bound d hd
    · have hfill : t.isBound = true → a.serverTcpConnections.contains cmd.token = true := hp.servers.filled _ hmem
      rw [List.mem_singleton.1 hd, (hp.servers.fits _ hmem).2 t.token rfl]
      exact hfill (by simp [TcpServer.isBound, hl])
  | start hc hx h =>
    obtain ⟨-, htok, -⟩ := TCPServerConnection.start_of_step h
    exact Bound.putConn (a := { a with connId := a.connId + 1 }) ⟨⟨hp.servers.fits, hp.servers.wf, hp.servers.filled⟩,
      hp.bound⟩ hc htok
  | conn hc hx he h => exact hp.putConn hc (TCPServerConnection.not_register_of_step he h).1.token
  | beginStop hc => exact hp.putConn hc (TCPServerConnection.token_beginStop _)
  | @endStop k c hc _ sent =>
    have htok : (c.endStop sent).1.token = c.token := rfl
    exact Bound.putConn (a := { a with incoming := .idle }) ⟨⟨hp.servers.fits, hp.servers.wf, hp.servers.filled⟩,
      hp.bound⟩ hc htok

theorem Bound.step (hp : Bound a) (h : a.step e = some (a', o)) : Bound a' := by
  refine preserved (fun hs _ h hp => ⟨hp.servers.session hs h, fun c hc => ?_⟩) (fun h hp => hp.act h) h hp
  rw [conns_putSession] at hc
  exact contains_serverTcpConnections_putSession.2 (.inl (hp.bound c hc))

theorem bound_of_run (h : Run step (init full info) es a os) : Bound a :=
  h.state_invariant (fun hp hs => hp.step hs) ⟨.init full info, fun _ hc => absurd hc List.not_mem_nil⟩

/-- `run` enters the connection into the table of its server, under the token that the constructor got. -/
theorem registers_of_start (hp : Bound a) (h : a.step (.conn j (.start ct)) = some (a', o)) :
    ∃ c table, a.conns[j]? = some c ∧ a'.serverTcpConnections.get? c.token = some table ∧ table.get? ct = some j ∧
      .conn j .register ∈ o := by
  obtain ⟨c, c', os, hc, hct, hstep, rfl, rfl⟩ := start_of_step h
  obtain ⟨-, htok, hct', -, -, -, os', rfl, hos'⟩ := TCPServerConnection.start_of_step hstep
  obtain ⟨table, htable⟩ := Dict.contains_iff.1 (hp.bound c (List.mem_of_getElem? hc))
  refine ⟨c, table.set ct j, hc, ?_, by simp, by simp⟩
  rw [serverTcpConnections_putConn, if_pos htok.symm, List.foldl_cons, foldl_connEntry (not_register_of_sent hos'),
    connEntry, hct']
  exact congrArg (Option.map _) htable

/-! ### Tokens do not collide -/

/-- A token that was returned once leads to one connection. -/
theorem eq_of_mem_start {k : Nat} (hn : (connectionIds es).Nodup) (hj : .conn j (.start ct) ∈ es)
    (hk : .conn k (.start ct) ∈ es) : j = k := by
  obtain ⟨es₁, es₂, rfl⟩ := List.append_of_mem hj
  have hnot : ct ∉ connectionIds (es₁ ++ es₂) := by
    have hperm : (connectionIds (es₁ ++ .conn j (.start ct) :: es₂)).Perm (ct :: connectionIds (es₁ ++ es₂)) :=
      List.perm_middle.filterMap Event.connectionId?
    exact (List.nodup_cons.1 (hperm.nodup hn)).1
  rcases List.mem_append.1 hk with hk | hk
  · exact absurd (mem_connectionIds (List.mem_append_left _ hk)) hnot
  · rcases List.mem_cons.1 hk with hk | hk
    · cases hk
      rfl
    · exact absurd (mem_connectionIds (List.mem_append_right _ hk)) hnot

/-- As long as the counter has 16 digits at most, the tokens that `get_connection_id` returns have 16 bytes each and
are pairwise distinct, and a connection registers under a key that no other connection ever has. -/
theorem connectionIds_distinct (h : Run step (init full info) es a os)
    (hn : (connectionIds es).length < 10 ^ 16 - 10) :
    (connectionIds es).Nodup ∧ (∀ ct ∈ connectionIds es, ct.length = 16) ∧
      ∀ es₁ j ct es₂, es = es₁ ++ .conn j (.start ct) :: es₂ →
        (∃ a₁ os₁ a₂ o c table, Run step (init full info) es₁ a₁ os₁ ∧
          a₁.step (.conn j (.start ct)) = some (a₂, o) ∧ a₁.conns[j]? = some c ∧
          a₂.serverTcpConnections.get? c.token = some table ∧ table.get? ct = some j ∧ .conn j .register ∈ o) ∧
        ∀ es' a' os' k, es' <+: es → Run step (init full info) es' a' os' → a'.Uses k ct → k = j := by
  have hcount := counted_of_run h
  refine ⟨hcount.nodup, fun ct => hcount.length_eq hn, fun es₁ j ct es₂ heq => ⟨?_, ?_⟩⟩
  · subst heq
    obtain ⟨a₁, os₁, os₂, h₁, h₂, -⟩ := h.split
    cases h₂ with
    | cons hs _ =>
      obtain ⟨c, table, hc, htable, hj, hreg⟩ := registers_of_start (bound_of_run h₁) hs
      exact ⟨a₁, os₁, _, _, c, table, h₁, hs, hc, htable, hj, hreg⟩
  · intro es' a' os' k hpre hrun hu
    have hk := hpre.subset (uses_of_run hrun hu)
    exact eq_of_mem_start hcount.nodup hk (by simp [heq])

theorem connectionIds_distinct_twoConnections : ∃ a os, Run step (init true someInfo) twoConnections a os ∧
    (connectionIds twoConnections).Nodup ∧ (∀ ct ∈ connectionIds twoConnections, ct.length = 16) ∧
      ∀ k, a.Uses k (connectionId 10) → k = 0 :=
  have ⟨a, os, h⟩ : ∃ a os, Run step (init true someInfo) twoConnections a os := ⟨_, _, .of_exec rfl⟩
  have ⟨hnodup, hlen, huses⟩ := connectionIds_distinct h (by decide)
  ⟨a, os, h, hnodup, hlen, fun k => (huses (twoConnections.take 7) 0 (connectionId 10) _ rfl).2 _ a os k
    List.prefix_rfl h⟩

end Agent

end Wsnet
