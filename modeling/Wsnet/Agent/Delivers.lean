import Wsnet.Agent.Asked
import Wsnet.Agent.ConnectionIds

/-!
# What the peers of a TCP server get

`process_incoming` looks an SDSRV up by its two tokens and hands its data to the connection it finds. As long as no
frame names a connection token that is still to be handed out, a connection that has started has written to its
peer the first of the data that came for it, and all of them while it is in the table (`Delivers`).
-/

namespace Wsnet

/-- The data of the messages for a connection, in order. -/
def dataFor (token connectiontoken : Bytes) (rs : List CMD) : List Bytes :=
  rs.filterMap fun
    | .SDSRV m => if m.token = token ∧ m.connectiontoken = connectiontoken then some m.data else none
    | _ => none

section dataFor
variable {token connectiontoken : Bytes} {rs rs' : List CMD} {m : WSNServerSocketData}

@[simp] theorem dataFor_append :
    dataFor token connectiontoken (rs ++ rs') = dataFor token connectiontoken rs ++ dataFor token connectiontoken rs' :=
  List.filterMap_append

@[simp] theorem dataFor_nil : dataFor token connectiontoken [] = [] := rfl

theorem dataFor_SDSRV (ht : m.token = token) (hct : m.connectiontoken = connectiontoken) :
    dataFor token connectiontoken [.SDSRV m] = [m.data] := by
  simp [dataFor, ht, hct]

theorem dataFor_SDSRV_ne (h : ¬ (m.token = token ∧ m.connectiontoken = connectiontoken)) :
    dataFor token connectiontoken [.SDSRV m] = [] := by
  simp [dataFor, h]

theorem dataFor_eq_nil (h : ∀ m, .SDSRV m ∈ rs → m.connectiontoken ≠ connectiontoken) :
    dataFor token connectiontoken rs = [] := by
  refine List.filterMap_eq_nil_iff.2 fun c hc => ?_
  split
  · exact if_neg fun hm => h _ hc hm.2
  · rfl

end dataFor

namespace Agent

/-- What `handle_write` has written to the peer of the connection `j`. -/
def wroteBy (j : Nat) (os : List Output) : List Bytes :=
  os.filterMap fun
    | .wrote i data => if i = j then some data else none
    | _ => none

@[simp] theorem wroteBy_append {j : Nat} {os os' : List Output} :
    wroteBy j (os ++ os') = wroteBy j os ++ wroteBy j os' := List.filterMap_append

variable {a a' : Agent} {e : Event} {o os : List Output} {r : Agent × List Output} {c c' : TCPServerConnection}
  {j k : Nat}

/-! ### Who writes, and who sends messages for a connection -/

/-- No message for a connection is received, written to its peer or sent by `process_incoming`. -/
def Output.isPlain : Output → Bool
  | .wrote _ _ | .received _ | .sent (.SDSRV _) => false
  | _ => true

/-- `process_incoming` has no message for a connection left to send. -/
def Mute (a : Agent) : Prop := ∀ rest onFail, a.incoming = .sending rest onFail → ∀ m, .SDSRV m ∉ rest

/-- The agent has become `r.1`, and messages for connections have no part in it. -/
structure Plain (r : Agent × List Output) : Prop where
  outputs : ∀ x ∈ r.2, x.isPlain = true
  mute : r.1.Mute

theorem wroteBy_of_plain (h : ∀ x ∈ o, x.isPlain = true) (j : Nat) : wroteBy j o = [] := by
  refine List.filterMap_eq_nil_iff.2 fun x hx => ?_
  have := h x hx
  split
  · cases this
  · rfl

theorem received_of_plain (h : ∀ x ∈ o, x.isPlain = true) : received o = [] := by
  refine List.filterMap_eq_nil_iff.2 fun x hx => ?_
  have := h x hx
  split
  · cases this
  · rfl

theorem Plain.andThen (ho : ∀ x ∈ o, x.isPlain = true) (h : Plain r) : Plain (andThen o r) :=
  ⟨fun x hx => (List.mem_append.1 hx).elim (ho x) (h.outputs x), h.mute⟩

theorem isPlain_conn (i : Nat) (o : List TCPServerConnection.Effect) : ∀ x ∈ o.map (Output.conn i), x.isPlain = true := by
  intro x hx
  obtain ⟨y, -, rfl⟩ := List.mem_map.1 hx
  rfl

theorem mute_of_ne (h : ∀ rest onFail, a.incoming ≠ .sending rest onFail) : a.Mute :=
  fun rest onFail hi => absurd hi (h rest onFail)

theorem plain_return (ok : Bool) : Plain (a.return_ ok) := by
  refine ⟨fun x hx => ?_, mute_of_ne fun _ _ hi => by cases hi⟩
  rw [List.mem_singleton.1 hx]
  rfl

theorem plain_sendAll {cs : List CMD} (hcs : ∀ m, .SDSRV m ∉ cs) (onFail : Option OnFail) :
    Plain (a.sendAll cs onFail) := by
  rcases cs with _ | ⟨c, cs⟩
  · exact plain_return true
  · refine ⟨fun x hx => ?_, fun rest f hi m hm => ?_⟩
    · rw [List.mem_singleton.1 hx]
      cases c with
      | SDSRV m => exact absurd List.mem_cons_self (hcs m)
      | _ => rfl
    · cases hi
      exact hcs m (List.mem_cons_of_mem _ hm)

theorem plain_closeServer (token : Bytes) : Plain (a.closeServer token) := by
  fun_cases Agent.closeServer a token
  · exact plain_return false
  · exact plain_return false
  · exact plain_return true

theorem plain_closeLoop (token : Bytes) (rest : List Bytes) : Plain (a.closeLoop token rest) := by
  fun_induction Agent.closeLoop a token rest with
  | case1 => exact plain_closeServer token
  | case2 | case3 | case4 => exact plain_return false
  | case5 a ct rest t ht j hj c hc hd ih => exact ih
  | case6 a ct rest t ht j hj c hc hd r => exact ⟨isPlain_conn j _, mute_of_ne fun _ _ hi => by cases hi⟩

theorem plain_stopConn (j : Nat) (c : TCPServerConnection) : Plain (a.stopConn j c) := by
  unfold Agent.stopConn
  dsimp only
  split
  · exact plain_return true
  · exact ⟨isPlain_conn j _, mute_of_ne fun _ _ hi => by cases hi⟩

/-- The commands of the client of a TCP server, but for its messages to connections. -/
def Governs (c : CMD) : Prop := c.type = .CONNECT ∨ c.type = .OK

theorem plain_dispatch {c : CMD} {f : FileOs} (hc : Governs c) : Plain (a.dispatch c f) := by
  fun_cases Agent.dispatch a c f with
  | case1 | case2 | case4 | case5 | case6 => rcases hc with hc | hc <;> cases hc
  | case3 | case8 => exact plain_return true
  | case7 => rcases hc with hc | hc <;> simp_all [CMDType.value]

theorem plain_processIncoming {c : CMD} {f : FileOs} (hc : Governs c) : Plain (a.processIncoming c f) := by
  fun_cases Agent.processIncoming a c f with
  | case1 | case2 | case3 | case4 => exact plain_return _
  | case5 => exact plain_closeLoop _ _
  | case6 => exact plain_closeServer _
  | case7 => exact plain_dispatch hc

theorem plain_stopDone {sent : Bool} {k : Agent → Agent × List Output} (hk : ∀ a, Plain (k a))
    (h : a.stopDone j sent k = some r) : Plain r := by
  unfold Agent.stopDone at h
  split at h <;> cases h
  exact .andThen (isPlain_conn j _) (hk _)

theorem plain_stepIncoming (hmute : a.Mute) (h : a.stepIncoming e = some r) : Plain r := by
  revert h
  fun_cases Agent.stepIncoming a e <;> intro h
  all_goals try cases h
  · exact plain_sendAll (hmute _ _ ‹_›) _
  · exact plain_stopDone (fun a => plain_closeLoop _ _) h
  · exact plain_stopDone (fun a => plain_return true) h
  · exact plain_sendAll (by simp [errReply]) _
  · exact plain_return false
  · exact plain_stopDone (fun a => plain_closeLoop _ _) h
  · exact plain_stopDone (fun a => plain_return true) h
  · exact plain_stopConn _ _
  · exact plain_return true
  · exact plain_stopConn _ _

/-- A step that receives no command is plain, but for what is left to send. -/
theorem plain_of_step (hmute : a.Mute) (he : ∀ data f, e ≠ .recv data f) (h : a.step e = some (a', o)) :
    Plain (a', o) := by
  cases e with
  | recv data f => exact absurd rfl (he data f)
  | session i e =>
    simp only [Agent.step] at h
    split at h
    · cases h
    · split at h
      · obtain ⟨r, -, heq⟩ := Option.map_eq_some_iff.1 h
        rw [← heq]
        refine ⟨fun x hx => ?_, by rwa [Mute, incoming_putSession]⟩
        obtain ⟨y, -, rfl⟩ := List.mem_map.1 hx
        rfl
      · cases h
  | accept i peername =>
    simp only [Agent.step] at h
    split at h
    · split at h <;> cases h
      exact ⟨fun x hx => absurd hx List.not_mem_nil, hmute⟩
    · cases h
  | conn j e =>
    cases e with
    | start ct =>
      obtain ⟨c, c', os, -, -, -, rfl, rfl⟩ := start_of_step h
      exact ⟨isPlain_conn j os, by rwa [Mute, incoming_putConn]⟩
    | _ =>
      simp only [Agent.step] at h
      split at h
      · obtain ⟨r, -, heq⟩ := Option.map_eq_some_iff.1 h
        rw [← heq]
        exact ⟨isPlain_conn j _, by rwa [Mute, incoming_putConn]⟩
      · cases h
  | resolved k addresses | resolveSent k | resolveFailed k exc =>
    simp only [Agent.step] at h
    split at h <;> cases h
    exact ⟨by simp [Output.isPlain, errReply], hmute⟩
  | sent | drained | sendFailed exc | drainFailed =>
    simp only [Agent.step] at h
    exact plain_stepIncoming hmute h

/-- What a step does that gets no message for a connection. -/
structure Quietly (e : Event) (a' : Agent) (o : List Output) : Prop where
  wrote : ∀ j, wroteBy j o = []
  received : received o = e.cmd?.toList
  governs : ∀ c, e.cmd? = some c → Governs c
  sent : ∀ m, .sent (.SDSRV m) ∉ o
  mute : a'.Mute

theorem Quietly.not_received (h : Quietly e a' o) (m : WSNServerSocketData) : .SDSRV m ∉ Agent.received o := by
  intro hm
  rw [h.received, Option.mem_toList] at hm
  rcases h.governs _ hm with h | h <;> cases h

theorem Quietly.dataFor (h : Quietly e a' o) (t ct : Bytes) : dataFor t ct (Agent.received o) = [] :=
  dataFor_eq_nil fun m hm => absurd hm (h.not_received m)

theorem Plain.quietly (h : Plain (a', o)) (he : e.cmd? = none) : Quietly e a' o where
  wrote := wroteBy_of_plain h.outputs
  received := by rw [received_of_plain h.outputs, he, Option.toList_none]
  governs c hc := by
    rw [he] at hc
    cases hc
  sent m hm := by cases h.outputs _ hm
  mute := h.mute

theorem quietly_of_step (hmute : a.Mute) (hm : ∀ c, e.cmd? = some c → Governs c) (h : a.step e = some (a', o)) :
    Quietly e a' o := by
  by_cases he : ∃ data f, e = .recv data f
  · obtain ⟨data, f, rfl⟩ := he
    simp only [Agent.step] at h
    split at h
    · split at h
      · rename_i c hc
        have hcmd : (Event.recv data f).cmd? = some c := by simp [Event.cmd?, hc]
        have hplain : Plain (a.processIncoming c f) := plain_processIncoming (hm c hcmd)
        have hwrote : ∀ j, wroteBy j (a.processIncoming c f).2 = [] := wroteBy_of_plain hplain.outputs
        obtain ⟨rfl, rfl⟩ := Prod.mk.inj (Option.some.inj h)
        refine ⟨hwrote, ?_, hm, fun m hmem => ?_, hplain.mute⟩
        · rw [hcmd]
          exact congrArg (c :: ·) (received_of_plain hplain.outputs)
        · rcases List.mem_cons.1 hmem with hmem | hmem
          · cases hmem
          · cases hplain.outputs _ hmem
      · rename_i err herr
        cases h
        exact ⟨fun j => rfl, by simp [Event.cmd?, herr, Agent.received], hm, fun m hm => (by simp at hm), hmute⟩
    · cases h
  · refine (plain_of_step hmute (fun data f heq => he ⟨data, f, heq⟩) h).quietly ?_
    cases e with
    | recv data f => exact absurd ⟨data, f, rfl⟩ he
    | _ => rfl

/-- A message that no queue of a TCP session takes is looked up in the table of its server. -/
theorem processIncoming_SDSRV {m : WSNServerSocketData} {f : FileOs} (hq : a.processQueues.get? m.token = none) :
    a.processIncoming (.SDSRV m) f = a.serverData m := by
  unfold Agent.processIncoming
  simp only [CMD.token, CMD.type, hq, reduceCtorEq, decide_false, and_false, if_false, Agent.dispatch]
  split <;> first | rfl | (rename_i h; cases h)

/-- The tables lead the message to the connection `j`. -/
def Finds (a : Agent) (m : WSNServerSocketData) (j : Nat) : Prop :=
  a.processQueues.get? m.token = none ∧
    ∃ table, a.serverTcpConnections.get? m.token = some table ∧ table.get? m.connectiontoken = some j

/-- What becomes of a message for a connection. -/
structure Looks (a a' : Agent) (m : WSNServerSocketData) (o : List Output) : Prop where
  conns : a'.conns = a.conns
  tables : a'.serverTcpConnections = a.serverTcpConnections
  received : received o = [.SDSRV m]
  wrote : (∃ i, a.Finds m i ∧ ∀ j, wroteBy j o = if i = j then [m.data] else []) ∨
    (∀ i, ¬ a.Finds m i) ∧ ∀ j, wroteBy j o = []
  sent : ∀ m', .sent (.SDSRV m') ∈ o → m'.connectiontoken = m.connectiontoken
  mute : a'.Mute

/-- The message is not for a connection of the table: it is dropped or answered. -/
theorem looks_of_sendAll {m : WSNServerSocketData} (cs : List CMD) (hc : a'.conns = a.conns)
    (ht : a'.serverTcpConnections = a.serverTcpConnections) (hn : ∀ i, ¬ a.Finds m i)
    (hcs : cs.length ≤ 1 ∧ ∀ m', .SDSRV m' ∈ cs → m'.connectiontoken = m.connectiontoken) :
    Looks a (a'.sendAll cs none).1 m (.received (.SDSRV m) :: (a'.sendAll cs none).2) := by
  rcases cs with _ | ⟨c, _ | ⟨c', cs⟩⟩
  · exact ⟨hc, ht, rfl, .inr ⟨hn, fun j => rfl⟩, by simp [sendAll, return_], mute_of_ne fun _ _ hi => by cases hi⟩
  · refine ⟨hc, ht, rfl, .inr ⟨hn, fun j => rfl⟩, fun m' hm' => ?_, fun rest f hi m' hm' => ?_⟩
    · simp only [sendAll, List.mem_cons, reduceCtorEq, false_or, List.not_mem_nil, or_false] at hm'
      exact hcs.2 m' (by simpa using hm')
    · cases hi
      cases hm'
  · simp at hcs

theorem wroteBy_received (m : WSNServerSocketData) (i j : Nat) :
    wroteBy j [.received (.SDSRV m), .wrote i m.data] = if i = j then [m.data] else [] := by
  by_cases h : i = j <;> simp [wroteBy, h]

theorem looks_serverData (m : WSNServerSocketData) (hq : a.processQueues.get? m.token = none) :
    Looks a (a.serverData m).1 m (.received (.SDSRV m) :: (a.serverData m).2) := by
  fun_cases Agent.serverData a m with
  | case1 table ht j hj =>
    exact ⟨rfl, rfl, rfl, .inl ⟨j, ⟨hq, table, ht, hj⟩, wroteBy_received m j⟩, by simp,
      mute_of_ne fun _ _ hi => by cases hi⟩
  | case2 table ht hj =>
    refine looks_of_sendAll _ rfl rfl (fun i hfinds => ?_) (by simp)
    obtain ⟨-, table', ht', hi⟩ := hfinds
    cases ht.symm.trans ht'
    rw [hj] at hi
    cases hi
  | case3 ht =>
    have hn : ∀ i, ¬ a.Finds m i := fun i hfinds => by
      obtain ⟨-, table, ht', -⟩ := hfinds
      rw [ht] at ht'
      cases ht'
    exact looks_of_sendAll [] rfl rfl hn (by simp)
  | case4 ht =>
    refine looks_of_sendAll _ rfl rfl (fun i hfinds => ?_) (by simp [errReply])
    obtain ⟨-, table, ht', -⟩ := hfinds
    rw [ht] at ht'
    cases ht'

theorem looks_of_step {m : WSNServerSocketData} (hm : e.cmd? = some (.SDSRV m)) (h : a.step e = some (a', o)) :
    Looks a a' m o := by
  cases e with
  | recv data f =>
    simp only [Agent.step] at h
    split at h
    · split at h
      · rename_i c hc
        simp only [Event.cmd?, hc, Option.some.injEq] at hm
        subst hm
        cases h
        by_cases hq : a.processQueues.get? m.token = none
        · have hlooks := looks_serverData m hq
          rwa [← processIncoming_SDSRV (f := f) hq] at hlooks
        · have hn : ∀ i, ¬ a.Finds m i := fun i hfinds => hq hfinds.1
          obtain ⟨i, hi⟩ := Option.ne_none_iff_exists'.1 hq
          fun_cases Agent.processIncoming a (.SDSRV m) f with
          | case1 | case2 => exact looks_of_sendAll [] rfl rfl hn (by simp)
          | case3 hq' | case4 hq' | case5 hq' | case6 hq' | case7 hq' => exact absurd hq' hq
      · rename_i err herr
        simp [Event.cmd?, herr] at hm
    · cases h
  | _ => cases hm

/-! ### The connections and their table -/

/-- The connection `j` has started or not as before, and is in the table only if it was. -/
structure Keeps (a a' : Agent) (j : Nat) : Prop where
  back : ∀ c', a'.conns[j]? = some c' → c'.run ≠ .accepted → ∃ c, a.conns[j]? = some c ∧ c.run ≠ .accepted ∧
    c'.token = c.token ∧ c'.connectiontoken = c.connectiontoken ∧ (a'.Entered j c' → a.Entered j c)
  forth : ∀ c, a.conns[j]? = some c → c.run ≠ .accepted →
    ∃ c', a'.conns[j]? = some c' ∧ c'.run ≠ .accepted ∧ c'.connectiontoken = c.connectiontoken

namespace Keeps
variable {a₁ : Agent} {os : List TCPServerConnection.Effect}

theorem trans (h : Keeps a a₁ j) (h' : Keeps a₁ a' j) : Keeps a a' j where
  back c' hc' hrun' := by
    obtain ⟨c₁, hc₁, hrun₁, htok₁, hct₁, hent₁⟩ := h'.back c' hc' hrun'
    obtain ⟨c, hc, hrun, htok, hct, hent⟩ := h.back c₁ hc₁ hrun₁
    exact ⟨c, hc, hrun, htok₁.trans htok, hct₁.trans hct, fun h => hent (hent₁ h)⟩
  forth c hc hrun := by
    obtain ⟨c₁, hc₁, hrun₁, hct₁⟩ := h.forth c hc hrun
    obtain ⟨c', hc', hrun', hct'⟩ := h'.forth c₁ hc₁ hrun₁
    exact ⟨c', hc', hrun', hct'.trans hct₁⟩

/-- The connections and their tables stay, or a table is emptied. -/
theorem of_conns (hc : a'.conns = a.conns)
    (ht : ∀ t table, a'.serverTcpConnections.get? t = some table → table = Dict.empty ∨
      a.serverTcpConnections.get? t = some table) : Keeps a a' j where
  back c' hc' hrun := by
    refine ⟨c', hc ▸ hc', hrun, rfl, rfl, fun hent => ?_⟩
    obtain ⟨table, htable, hj⟩ := hent
    rcases ht _ _ htable with rfl | htable
    · cases hj
    · exact ⟨table, htable, hj⟩
  forth c hc' hrun := ⟨c, hc.symm ▸ hc', hrun, rfl⟩

theorem same (hc : a'.conns = a.conns) (ht : a'.serverTcpConnections = a.serverTcpConnections) : Keeps a a' j :=
  of_conns hc fun _ _ h => .inr (ht ▸ h)

/-- A connection goes on without a new entry. -/
theorem putConn (hc : a.conns[k]? = some c) (htok : c'.token = c.token) (hct : c'.connectiontoken = c.connectiontoken)
    (hrun : c'.run ≠ .accepted ↔ c.run ≠ .accepted) (hos : ∀ x ∈ os, x ≠ .register) :
    Keeps a (a.putConn k c' os).1 j := by
  have hent {d d' : TCPServerConnection} (ht : d'.token = d.token) (hd : d'.connectiontoken = d.connectiontoken)
      (h : (a.putConn k c' os).1.Entered j d') : a.Entered j d := by
    obtain ⟨table, htable, hj⟩ := h
    rw [ht, serverTcpConnections_putConn] at htable
    rw [hd] at hj
    split at htable
    · exact get?_of_foldl_connEntry hos htable hj
    · exact ⟨table, htable, hj⟩
  constructor
  · intro d' hd' hrun'
    rw [conns_putConn] at hd'
    rcases getElem?_set_cases hd' with ⟨rfl, rfl⟩ | ⟨-, hd'⟩
    · exact ⟨c, hc, hrun.1 hrun', htok, hct, hent htok hct⟩
    · exact ⟨d', hd', hrun', rfl, rfl, hent rfl rfl⟩
  · intro d hd hrun'
    rw [conns_putConn]
    by_cases hkj : k = j
    · subst hkj
      cases hc.symm.trans hd
      exact ⟨c', List.getElem?_set_self (List.getElem?_eq_some_iff.1 hc).1, hrun.2 hrun', hct⟩
    · exact ⟨d, (List.getElem?_set_ne hkj).trans hd, hrun', rfl⟩

theorem of_act (he : ∀ i ct, e ≠ .conn i (.start ct)) (h : Act e a a' o) : Keeps a a' j := by
  cases h with
  | put | create | cancel | openFile | closeFile | delFile | drain | other => exact same rfl rfl
  | accept hs hl peername hx =>
    constructor
    · intro d hd hrun
      rcases getElem?_snoc hd with hd | ⟨-, rfl⟩
      · exact ⟨d, hd, hrun, rfl, rfl, id⟩
      · exact absurd rfl hrun
    · intro d hd hrun
      exact ⟨d, (List.getElem?_append_left (List.getElem?_eq_some_iff.1 hd).1).trans hd, hrun, rfl⟩
  | start hc hx h => exact absurd hx (he _ _)
  | conn hc hx he' h =>
    obtain ⟨hf, hos⟩ := TCPServerConnection.not_register_of_step he' h
    exact putConn hc hf.token hf.connectiontoken ⟨fun _ => hf.started, fun _ => hf.run⟩ hos
  | beginStop hc =>
    refine (putConn hc (by simp) (by simp) (by simp) fun x hx => ?_).trans (same rfl rfl)
    exact (not_register_of_sent TCPServerConnection.effects_beginStop x hx).1
  | @endStop k c hc _ sent =>
    have hos : ∀ x ∈ (c.endStop sent).2, x ≠ .register := by cases sent <;> simp [TCPServerConnection.endStop]
    have hsame : Keeps a { a with incoming := .idle } j := same rfl rfl
    have hidle : Keeps { a with incoming := .idle }
        ({ a with incoming := .idle }.putConn k (c.endStop sent).1 (c.endStop sent).2).1 j :=
      putConn hc rfl rfl .rfl hos
    exact hsame.trans hidle

theorem of_step (he : ∀ i ct, e ≠ .conn i (.start ct)) (h : a.step e = some (a', o)) : Keeps a a' j :=
  preserved (P := fun a' => Keeps a a' j)
    (fun {a₁ i s s' e' o'} _ _ _ hp => hp.trans (of_conns conns_putSession fun t table ht => by
      rw [serverTcpConnections_putSession] at ht
      split at ht
      · exact .inl (Option.some.inj ht).symm
      · exact .inr ht))
    (fun hact hp => hp.trans (of_act he hact)) h (same rfl rfl)

end Keeps

/-! ### The connection tokens that are named -/

/-- The connection token is that of a connection that has started. -/
def Handed (a : Agent) (ct : Bytes) : Prop :=
  ∃ (j : Nat) (c : TCPServerConnection), a.conns[j]? = some c ∧ c.run ≠ .accepted ∧ c.connectiontoken = ct

/-- Messages for connections name tokens that have been handed out. -/
structure Told (a : Agent) (os : List Output) : Prop where
  received : ∀ m, .SDSRV m ∈ received os → a.Handed m.connectiontoken
  sent : ∀ m, .SDSRV m ∈ sentMessages os → a.Handed m.connectiontoken
  mute : a.Mute

theorem handed_act {ct : Bytes} (he : ∀ i ct, e ≠ .conn i (.start ct)) (hact : Act e a a' o) (h : a.Handed ct) :
    a'.Handed ct := by
  obtain ⟨j, c, hc, hrun, rfl⟩ := h
  have hkeeps : Keeps a a' j := .of_act he hact
  obtain ⟨c', hc', hrun', hct⟩ := hkeeps.forth c hc hrun
  exact ⟨j, c', hc', hrun', hct⟩

/-- A token that has been handed out stays so. -/
theorem handed_of_step {ct : Bytes} (hs : a.step e = some (a', o)) (h : a.Handed ct) : a'.Handed ct := by
  obtain ⟨j, c, hc, hrun, rfl⟩ := h
  by_cases he : ∃ k ct, e = .conn k (.start ct)
  · obtain ⟨k, ct, rfl⟩ := he
    obtain ⟨d, d', es, hd, -, hstep, rfl, -⟩ := start_of_step hs
    have hkj : k ≠ j := by
      rintro rfl
      cases hd.symm.trans hc
      exact hrun (TCPServerConnection.start_of_step hstep).1
    exact ⟨j, c, by rwa [conns_putConn, List.getElem?_set_ne hkj], hrun, rfl⟩
  · have hkeeps : Keeps a a' j := .of_step (fun i ct heq => he ⟨i, ct, heq⟩) hs
    obtain ⟨c', hc', hrun', hct⟩ := hkeeps.forth c hc hrun
    exact ⟨j, c', hc', hrun', hct⟩

theorem handed_putConn {es : List TCPServerConnection.Effect} (hlt : k < a.conns.length) (hrun : c'.run ≠ .accepted)
    (hn : c'.Named es) {m : WSNServerSocketData} (hm : .conn j (.sent m) ∈ (a.putConn k c' es).2)
    (hconns : a'.conns = a.conns.set k c') : a'.Handed m.connectiontoken := by
  obtain ⟨x, hx, heq⟩ := List.mem_map.1 hm
  cases heq
  exact ⟨j, c', by rw [hconns, List.getElem?_set_self hlt], hrun, (hn m hx).2.symm⟩

theorem named_act (he : ∀ i ct, e ≠ .conn i (.start ct)) (hact : Act e a a' o) (hp : Conns a)
    {m : WSNServerSocketData} (hm : .conn j (.sent m) ∈ o) : a'.Handed m.connectiontoken := by
  cases hact with
  | put | create | cancel | openFile | closeFile | delFile | accept => cases hm
  | start hc hx hs => exact absurd hx (he _ _)
  | conn hc hx he' hs =>
    obtain ⟨hf, -⟩ := TCPServerConnection.not_register_of_step he' hs
    exact handed_putConn (List.getElem?_eq_some_iff.1 hc).1 hf.run (TCPServerConnection.named_of_step hs).2 hm
      conns_putConn
  | drain => simp at hm
  | @beginStop k c hc hj ha incoming hd hi =>
    have hrun : c.run ≠ .accepted := by
      rcases hj with ⟨t, table, ct, htable, hget⟩ | ⟨data, hdrain⟩
      · obtain ⟨d, hd, -, -, hrun⟩ := hp.entry htable hget
        cases hc.symm.trans hd
        exact hrun
      · obtain ⟨d, hd, hrun⟩ := hp.draining hdrain
        cases hc.symm.trans hd
        exact hrun
    have hfollows := TCPServerConnection.follows_beginStop hrun
    exact handed_putConn (List.getElem?_eq_some_iff.1 hc).1 hfollows.run TCPServerConnection.named_beginStop hm
      conns_putConn
  | @endStop k c hc ha sent hx =>
    obtain ⟨x, hx', heq⟩ := List.mem_map.1 hm
    cases heq
    cases sent <;> simp [TCPServerConnection.endStop] at hx'
  | other incoming hi hd resolving ho => cases ho _ hm

theorem named_acts (he : ∀ i ct, e ≠ .conn i (.start ct)) (hsend : e.isSendFailed = false) (hacts : Acts e a a' o)
    (hp : ConnInv a) {m : WSNServerSocketData} (hm : .conn j (.sent m) ∈ o) : a'.Handed m.connectiontoken := by
  induction hacts with
  | nil => cases hm
  | cons hact hacts ih =>
    rcases List.mem_append.1 hm with hm | hm
    · exact hacts.state_preserve (fun hact h => handed_act he hact h) (named_act he hact hp.conns hm)
    · exact ih (hp.act hsend hact) hm

/-- The messages of connections name tokens that have been handed out. -/
theorem named_of_step (hsend : e.isSendFailed = false) (hp : ConnInv a) (h : a.step e = some (a', o))
    {m : WSNServerSocketData} (hm : .conn j (.sent m) ∈ o) : a'.Handed m.connectiontoken := by
  by_cases he : ∃ k ct, e = .conn k (.start ct)
  · obtain ⟨k, ct, rfl⟩ := he
    obtain ⟨c, c', es, hc, -, hstep, rfl, rfl⟩ := start_of_step h
    obtain ⟨-, -, -, hrun, -⟩ := TCPServerConnection.start_of_step hstep
    exact handed_putConn (a := a.getConnectionId.2) (List.getElem?_eq_some_iff.1 hc).1 hrun
      (TCPServerConnection.named_of_step hstep).2 hm conns_putConn
  · rcases step_cases h with ⟨i, e', s, s', o', -, -, -, -, heq⟩ | ⟨-, hacts⟩
    · obtain ⟨-, rfl⟩ := Prod.mk.inj heq
      obtain ⟨x, -, heq⟩ := List.mem_map.1 hm
      cases heq
    · exact named_acts (fun i ct heq => he ⟨i, ct, heq⟩) hsend hacts hp hm

theorem not_session_of_acts (h : Acts e a a' o) (token : Bytes) (x : Effect) : .session token x ∉ o := by
  induction h with
  | nil => exact List.not_mem_nil
  | cons hact _ ih =>
    intro hm
    rcases List.mem_append.1 hm with hm | hm
    · cases hact with
      | put | create | cancel | openFile | closeFile | delFile | accept => cases hm
      | start | conn | beginStop | endStop =>
        obtain ⟨y, -, heq⟩ := List.mem_map.1 hm
        cases heq
      | drain => simp at hm
      | other incoming hi hd resolving ho => cases ho _ hm
    · exact ih hm

/-- The session of a TCP server sends no message for a connection. -/
theorem not_sent_of_session {s s' : Session} {e : Session.Event} {o : List Effect} (hs : s.task.branch = .tcpServer)
    (h : s.step e = some (s', o)) (m : WSNServerSocketData) : .sent (.SDSRV m) ∉ o := by
  intro hm
  have ht := (Session.step_eq_some h).2
  generalize s.task = k at ht hs; generalize s'.task = k' at ht; generalize s.taskEvent e = e' at ht
  cases ht with
  | tcpServer h => rcases (TcpServer.sent_of_step h _ hm).2 with htype | htype <;> cases htype
  | tcpClient h => cases hs
  | udpClient h => cases hs
  | udpServer h => cases hs
  | nothing => cases hm

theorem mem_sentMessages {m : CMD} : m ∈ sentMessages os ↔ ∃ x ∈ os, x.message? = some m := List.mem_filterMap

/-- A command that comes governs a server, or is for a connection that has started. -/
def Minds (a : Agent) (e : Event) : Prop :=
  ∀ c, e.cmd? = some c → Governs c ∨ ∃ m, c = .SDSRV m ∧ a.Handed m.connectiontoken

/-- A step receives its command. -/
theorem received_of_step (hmute : a.Mute) (hcmd : a.Minds e) (h : a.step e = some (a', o)) :
    received o = e.cmd?.toList := by
  by_cases hm : ∃ m, e.cmd? = some (.SDSRV m)
  · obtain ⟨m, hm⟩ := hm
    rw [(looks_of_step hm h).received, hm, Option.toList_some]
  · refine (quietly_of_step hmute (fun c hc => (hcmd c hc).resolve_right fun hsd => ?_) h).received
    obtain ⟨m, rfl, -⟩ := hsd
    exact hm ⟨m, hc⟩

/-- What one step keeps, if the sessions are TCP servers. -/
theorem Told.step (hp : Told a os) (hc : ConnInv a) (hs : ∀ s ∈ a.sessions, s.task.branch = .tcpServer)
    (hsend : e.isSendFailed = false) (hcmd : a.Minds e) (h : a.step e = some (a', o)) : Told a' (os ++ o) := by
  have hown : (∀ m, .SDSRV m ∈ Agent.received o → a.Handed m.connectiontoken) ∧
      (∀ m, .sent (.SDSRV m) ∈ o → a.Handed m.connectiontoken) ∧ a'.Mute := by
    by_cases hm : ∃ m, e.cmd? = some (.SDSRV m)
    · obtain ⟨m, hm⟩ := hm
      have hlooks := looks_of_step hm h
      have hhanded : a.Handed m.connectiontoken := by
        rcases hcmd _ hm with (h | h) | ⟨m', heq, hm'⟩
        · cases h
        · cases h
        · cases heq
          exact hm'
      refine ⟨fun m' hm' => ?_, fun m' hm' => ?_, hlooks.mute⟩
      · rw [hlooks.received, List.mem_singleton] at hm'
        cases hm'
        exact hhanded
      · rw [hlooks.sent m' hm']
        exact hhanded
    · have hquiet : Quietly e a' o := by
        refine quietly_of_step hp.mute (fun c hc => ?_) h
        rcases hcmd c hc with h | ⟨m, rfl, -⟩
        · exact h
        · exact absurd ⟨m, hc⟩ hm
      exact ⟨fun m hm => absurd hm (hquiet.not_received m), fun m hm => absurd hm (hquiet.sent m), hquiet.mute⟩
  obtain ⟨hreceived, hsent, hmute⟩ := hown
  refine ⟨fun m hm => handed_of_step h ?_, fun m hm => ?_, hmute⟩
  · rw [received_append] at hm
    rcases List.mem_append.1 hm with hm | hm
    · exact hp.received m hm
    · exact hreceived m hm
  · rw [sentMessages_append] at hm
    rcases List.mem_append.1 hm with hm | hm
    · exact handed_of_step h (hp.sent m hm)
    · obtain ⟨x, hx, hmsg⟩ := mem_sentMessages.1 hm
      rcases x with ⟨token, y⟩ | ⟨j, y⟩ | ⟨j, data⟩ | c | c | ok
      · exfalso
        rcases step_cases h with ⟨i, e', s, s', o', -, -, hget, hstep, heq⟩ | ⟨-, hacts⟩
        · obtain ⟨-, rfl⟩ := Prod.mk.inj heq
          obtain ⟨z, hz, heq⟩ := List.mem_map.1 hx
          cases heq
          have hy : y = .sent (.SDSRV m) := by cases y <;> simp_all [Output.message?]
          exact not_sent_of_session (hs s (List.mem_of_getElem? hget)) hstep m (hy ▸ hz)
        · exact not_session_of_acts hacts token y hx
      · have hy : y = .sent m := by cases y <;> simp_all [Output.message?]
        exact named_of_step hsend hc h (hy ▸ hx)
      · cases hmsg
      · cases hmsg
        exact handed_of_step h (hsent m hx)
      · cases hmsg
      · cases hmsg

/-! ### What a peer has got -/

/-- A connection has written to its peer what came for it, in order: all of it while it is in the table. -/
structure Delivers (a : Agent) (os : List Output) : Prop where
  unstarted : ∀ j, (∀ c, a.conns[j]? = some c → c.run = .accepted) → wroteBy j os = []
  started : ∀ j c, a.conns[j]? = some c → c.run ≠ .accepted →
    wroteBy j os <+: dataFor c.token c.connectiontoken (received os) ∧
      (a.Entered j c → wroteBy j os = dataFor c.token c.connectiontoken (received os))

/-- A step that writes nothing and receives nothing for a connection. -/
theorem Delivers.keep (hp : Delivers a os) (hk : ∀ j, Keeps a a' j) (hq : Quietly e a' o) :
    Delivers a' (os ++ o) where
  unstarted j hj := by
    rw [wroteBy_append, hq.wrote, List.append_nil]
    refine hp.unstarted j fun c hc => ?_
    by_contra hrun
    obtain ⟨c', hc', hrun', -⟩ := (hk j).forth c hc hrun
    exact hrun' (hj c' hc')
  started j c' hc' hrun' := by
    obtain ⟨c, hc, hrun, htok, hct, hent⟩ := (hk j).back c' hc' hrun'
    obtain ⟨hfirst, hall⟩ := hp.started j c hc hrun
    rw [wroteBy_append, hq.wrote, List.append_nil, received_append, dataFor_append, hq.dataFor, List.append_nil, htok,
      hct]
    exact ⟨hfirst, fun h => hall (hent h)⟩

/-- A message for a connection goes to its peer, and to no other. -/
theorem Delivers.look {m : WSNServerSocketData} (hp : Delivers a os) (hc : Conns a)
    (hq : ∀ c ∈ a.conns, a.processQueues.get? c.token = none) (h : Looks a a' m o) : Delivers a' (os ++ o) := by
  have hent (j : Nat) (d : TCPServerConnection) : a'.Entered j d ↔ a.Entered j d := by
    rw [Entered, Entered, h.tables]
  -- the connection that is found is the only one with the tokens of the message
  have hfinds {i : Nat} (hi : a.Finds m i) : ∃ c, a.conns[i]? = some c ∧ c.run ≠ .accepted ∧ c.token = m.token ∧
      c.connectiontoken = m.connectiontoken ∧ a.Entered i c := by
    obtain ⟨-, table, htable, hget⟩ := hi
    obtain ⟨c, hget', htok, hct, hrun⟩ := hc.entry htable hget
    exact ⟨c, hget', hrun, htok, hct, table, by rwa [htok], by rwa [hct]⟩
  constructor
  · intro j hj
    rw [h.conns] at hj
    rw [wroteBy_append, hp.unstarted j hj, List.nil_append]
    rcases h.wrote with ⟨i, hi, hw⟩ | ⟨-, hw⟩
    · rw [hw, if_neg]
      rintro rfl
      obtain ⟨c, hget, hrun, -⟩ := hfinds hi
      exact hrun (hj c hget)
    · exact hw j
  · intro j c hget hrun
    rw [h.conns] at hget
    obtain ⟨hfirst, hall⟩ := hp.started j c hget hrun
    rw [wroteBy_append, received_append, dataFor_append, h.received, hent]
    by_cases hm : m.token = c.token ∧ m.connectiontoken = c.connectiontoken
    · rw [dataFor_SDSRV hm.1 hm.2]
      have hnone := hq c (List.mem_of_getElem? hget)
      have hiff : a.Finds m j ↔ a.Entered j c := by
        rw [Finds, Entered, hm.1, hm.2, hnone]
        exact and_iff_right rfl
      rcases h.wrote with ⟨i, hi, hw⟩ | ⟨hn, hw⟩
      · obtain ⟨d, hget', hrun', -, hct, -⟩ := hfinds hi
        obtain rfl : i = j := hc.unique hget' hget hrun' hrun (hct.trans hm.2)
        rw [hw, if_pos rfl, hall (hiff.1 hi)]
        exact ⟨List.prefix_rfl, fun _ => rfl⟩
      · rw [hw, List.append_nil]
        exact ⟨hfirst.trans (List.prefix_append _ _), fun hent => absurd (hiff.2 hent) (hn j)⟩
    · rw [dataFor_SDSRV_ne hm, List.append_nil]
      have hw : wroteBy j o = [] := by
        rcases h.wrote with ⟨i, hi, hw⟩ | ⟨-, hw⟩
        · rw [hw, if_neg]
          rintro rfl
          obtain ⟨d, hget', -, htok, hct, -⟩ := hfinds hi
          cases hget.symm.trans hget'
          exact hm ⟨htok.symm, hct.symm⟩
        · exact hw j
      rw [hw, List.append_nil]
      exact ⟨hfirst, hall⟩

/-- A connection starts: nothing has come for it. -/
theorem Delivers.start {ct : Bytes} (hp : Delivers a os) (hc : Conns a) (ht : Told a os)
    (h : a.step (.conn k (.start ct)) = some (a', o)) : Delivers a' (os ++ o) := by
  have hquiet := quietly_of_step ht.mute (fun c hc => by cases hc) h
  obtain ⟨c, c', es, hget, hct, hstep, rfl, rfl⟩ := start_of_step h
  obtain ⟨hacc, htok, hct', hrun', -, -, es', rfl, hes'⟩ := TCPServerConnection.start_of_step hstep
  have hlt : k < a.conns.length := (List.getElem?_eq_some_iff.1 hget).1
  have hkeeps {j : Nat} (hj : k ≠ j) : Keeps a ((getConnectionId a).2.putConn k c' (.register :: es')).1 j := by
    constructor
    · intro d hd hrun
      rw [conns_putConn, List.getElem?_set_ne hj] at hd
      refine ⟨d, hd, hrun, rfl, rfl, (entered_putConn_register (not_register_of_sent hes') fun heq => ?_).1⟩
      exact hc.ne_next hd hrun (heq.2.trans (hct'.trans hct))
    · intro d hd hrun
      rw [conns_putConn, List.getElem?_set_ne hj]
      exact ⟨d, hd, hrun, rfl⟩
  have hnone : wroteBy k os = [] := hp.unstarted k fun d hd => by
    cases hget.symm.trans hd
    exact hacc
  constructor
  · intro j hj
    rw [wroteBy_append, hquiet.wrote, List.append_nil]
    refine hp.unstarted j fun d hd => ?_
    by_contra hrun
    by_cases hkj : k = j
    · subst hkj
      cases hget.symm.trans hd
      exact hrun hacc
    · obtain ⟨d', hd', hrun', -⟩ := (hkeeps hkj).forth d hd hrun
      exact hrun' (hj d' hd')
  · intro j d' hd' hrun
    rw [wroteBy_append, hquiet.wrote, received_append, dataFor_append, hquiet.dataFor, List.append_nil, List.append_nil]
    by_cases hkj : k = j
    · subst hkj
      have hself : (a.conns.set k c')[k]? = some d' := by rwa [conns_putConn] at hd'
      rw [List.getElem?_set_self hlt] at hself
      cases hself
      have hdata : dataFor c'.token c'.connectiontoken (received os) = [] := by
        refine dataFor_eq_nil fun m hm heq => ?_
        obtain ⟨i, d, hd, hrun₀, hct₀⟩ := ht.received m hm
        exact hc.ne_next hd hrun₀ (hct₀.trans (heq.trans (hct'.trans hct)))
      rw [hnone, hdata]
      exact ⟨List.prefix_rfl, fun _ => rfl⟩
    · obtain ⟨d, hd, hrun', htok', hct₀, hent⟩ := (hkeeps hkj).back d' hd' hrun
      obtain ⟨hfirst, hall⟩ := hp.started j d hd hrun'
      rw [htok', hct₀]
      exact ⟨hfirst, fun h => hall (hent h)⟩

/-- What one step keeps. -/
theorem Delivers.step (hp : Delivers a os) (hc : Conns a) (ht : Told a os)
    (hq : ∀ c ∈ a.conns, a.processQueues.get? c.token = none) (hcmd : a.Minds e) (h : a.step e = some (a', o)) :
    Delivers a' (os ++ o) := by
  by_cases hm : ∃ m, e.cmd? = some (.SDSRV m)
  · obtain ⟨m, hm⟩ := hm
    exact hp.look hc hq (looks_of_step hm h)
  · by_cases he : ∃ k ct, e = .conn k (.start ct)
    · obtain ⟨k, ct, rfl⟩ := he
      exact hp.start hc ht h
    · have hgoverns : ∀ c, e.cmd? = some c → Governs c := fun c hc =>
        (hcmd c hc).resolve_right fun hsd => by
          obtain ⟨m, rfl, -⟩ := hsd
          exact hm ⟨m, hc⟩
      exact hp.keep (fun j => .of_step (fun i ct heq => he ⟨i, ct, heq⟩) h) (quietly_of_step ht.mute hgoverns h)

end Agent

end Wsnet
