import Wsnet.Agent.EndsOnOk
import Wsnet.Pyodide.Serving

/-!
# Each peer has one handler

The messages of a connection are told from others by its connection token, and the first of them that
`handle_new_msg` sees makes the handler. So a connection has one handler, in whose queue is what the connection has
sent behind its first message; what is behind the end of the stream is empty, and marks the end again (`HandsOver`).
This rests on tokens of 16 bytes: `get_connection_id` pads the number of a connection to 16, and the number that has 17
digits ends the client (`not_handsOver`).
-/

namespace Wsnet
open Pyodide.WSNetworkServerTCPReader (Ends ends_of_not_mem ends_append)

/-- What a connection has sent is an empty message and then all that it has read, with the end marked twice. -/
theorem TCPServerConnection.Line.tail {c : TCPServerConnection} {rs ps : List Bytes} (h : c.Line rs ps)
    (hrun : c.run ≠ .accepted) : ∃ ds, ps = [] :: ds ∧ Ends ds ∧ ds.flatten = rs.flatten ∧ ([] ∈ ds → [] ∈ rs) ∧
      (c.run = .stopping ∨ c.run = .done → [] ∈ ds) := by
  cases h with
  | accepted hacc => exact absurd hacc hrun
  | opening => exact ⟨[], rfl, .nil, rfl, id, by simp [*]⟩
  | reading hr _ hnil =>
    exact ⟨rs, rfl, ends_of_not_mem hnil, rfl, id, by simp [hr]⟩
  | @sending rs data hr _ hnil =>
    have hends : Ends (rs ++ [data]) := List.pairwise_append.2
      ⟨ends_of_not_mem hnil, List.pairwise_singleton _ _, fun d hd d' _ hd' => absurd (hd' ▸ hd) hnil⟩
    exact ⟨_, rfl, hends, rfl, id, by simp [hr]⟩
  | @closed rs _ hnil =>
    exact ⟨_, rfl, ends_append hnil (by simp), by simp, by simp, by simp⟩

namespace Pyodide

/-- Messages whose client address is spelt otherwise. -/
def Respelt (m cmd : WSNServerSocketData) : Prop := ∃ clientip, cmd = { m with clientip }

theorem dataOf_respelt {ms cmds : List WSNServerSocketData} (h : List.Forall₂ Respelt ms cmds) (ct : Bytes) :
    dataOf ct cmds = dataOf ct ms := by
  induction h with
  | nil => rfl
  | @cons m cmd ms cmds hm _ ih =>
    obtain ⟨clientip, rfl⟩ := hm
    rw [← List.singleton_append, dataOf_append, ih, ← List.singleton_append (l := ms), dataOf_append]
    by_cases hct : m.connectiontoken = ct <;> simp [dataOf, hct]

theorem WSNetworkTCPServer.handlers_terminate (s : WSNetworkTCPServer) : s.terminate.1.handlers = s.handlers := by
  by_cases h : s.Serves
  · cases hk : s.connections.keys with
    | nil => rw [terminate_of_keys_nil h hk]
    | cons ct rest =>
      obtain ⟨e, he⟩ := terminateWriters_cons s.token ct rest
      rcases hw : terminateWriters s.token (ct :: rest) with ⟨sent, x⟩
      rw [hw] at he
      dsimp only at he
      rw [terminate, if_neg (not_or.2 h), hk, hw, he]
  · rw [terminate, if_pos (by by_contra hne; exact h (not_or.1 hne))]

namespace Serving
open Agent (connMessages sentBy readBy)
open WSNetworkTCPServer (received readerEvents readerOutputs Dispatched)
open WSNetworkServerTCPReader (items results QueueItem.data)

variable {full : Bool} {info : WSNGetInfoReply} {cmd : WSNConnect} {es : List Event} {s s' : Serving} {e : Event}
  {os o : List Output} {j k : Nat} {h h' : Handler} {c : TCPServerConnection} {ms ms' cmds : List WSNServerSocketData}

/-! ### What is dispatched -/

/-- All that the agent has sent is dispatched. -/
def Settled (s : Serving) : Prop := s.link.down = [] ∧ ∀ cmd, s.client.pc ≠ .opening cmd

/-- `ms` are dispatched, and then `ms'` will be. -/
structure Dispatches (es : List Event) (s : Serving) (os : List Output) (ms ms' : List WSNServerSocketData)
    (cmds : List WSNServerSocketData) : Prop where
  dispatched : Dispatched cmds (clientEvents es) (clientOutputs os) s.client
  messages : connMessages (agentOutputs os) = ms ++ ms'
  respelt : List.Forall₂ Respelt ms cmds
  settled : s.Settled → ms' = []

theorem respelt_of_arrives {bs : List Bytes} {ms cmds : List WSNServerSocketData} (h : List.Forall₂ Arrives bs ms)
    (h' : List.Forall₂ (fun b cmd => CMD.fromBytes b = .ok (.SDSRV cmd)) bs cmds) : List.Forall₂ Respelt ms cmds := by
  induction h generalizing cmds with
  | nil =>
    cases h'
    exact .nil
  | cons hm _ ih =>
    cases h' with
    | cons hc htail =>
      obtain ⟨clientip, hm⟩ := hm
      rw [hm] at hc
      cases hc
      exact .cons ⟨clientip, rfl⟩ (ih htail)

/-- Where the client is, and what of the agent's messages it has taken. -/
inductive Stage (es : List Event) (s : Serving) (os : List Output) : Prop
  | connecting (hpc : s.client.pc = .connecting) (h : Dispatched [] (clientEvents es) (clientOutputs os) s.client)
    (hnone : s.link.down = [] → s.link.agent.conns = [])
  /-- nothing is behind a refusal -/
  | failed (hpc : s.client.pc = .failed) (h : Dispatched [] (clientEvents es) (clientOutputs os) s.client)
    (hdown : s.link.down = []) (hnone : s.link.agent.conns = [])
  | serving {ms ms' cmds : List WSNServerSocketData}
    (h : WSNetworkTCPServer.Takes (clientEvents es) (clientOutputs os) s.client cmds)
    (hms : connMessages (agentOutputs os) = ms ++ ms') (hresp : List.Forall₂ Respelt ms cmds)
    (hrest : s.link.down = [] → ms' = [])

theorem Between.stage (hp : Between full info cmd es s os) (ht : cmd.token.length = 16)
    (hid : s.link.agent.connId ≤ 10 ^ 16) : Stage es s os := by
  have hwire := wire_of_hosts hp.hosts ht hp.conns.conns hid
  rw [hp.fifo] at hwire
  cases hp.client with
  | connecting hpc hr h =>
    refine .connecting hpc h fun hdown => ?_
    rw [hr, hdown] at hwire
    cases hwire with
    | nothing _ hnil => exact hnil
    | refused hfs => cases hfs
    | bound hfs => cases hfs
  | failed hpc hr hb h =>
    rw [hr, List.cons_append] at hwire
    cases hwire with
    | nothing hfs => cases hfs
    | refused hfs _ hnil => exact .failed hpc h (List.append_eq_nil_iff.1 (List.cons.inj hfs).2).2 hnil
    | bound hfs hc =>
      cases hfs
      exact absurd hc (hb _)
  | serving hr hc hbs h =>
    rw [hr, List.cons_append] at hwire
    cases hwire with
    | nothing hfs => cases hfs
    | refused hfs hb =>
      obtain ⟨rfl, -⟩ := List.cons.inj hfs
      exact absurd hc (hb _)
    | bound hfs _ harr =>
      cases hfs
      obtain ⟨ms, ms', hms, hleft, hright⟩ := forall₂_append_left harr
      refine .serving h hms (respelt_of_arrives hleft hbs) fun hdown => ?_
      rw [hdown] at hright
      cases hright
      rfl

/-- What the client has dispatched is the first of what connections have sent. -/
theorem Between.dispatches (hp : Between full info cmd es s os) (ht : cmd.token.length = 16)
    (hid : s.link.agent.connId ≤ 10 ^ 16) : ∃ ms ms' cmds, Dispatches es s os ms ms' cmds := by
  cases hp.stage ht hid with
  | connecting _ h hnone => exact ⟨[], _, [], h, rfl, .nil, fun hs => hp.hosts.connMessages_eq_nil (hnone hs.1)⟩
  | failed _ h _ hnone => exact ⟨[], _, [], h, rfl, .nil, fun _ => hp.hosts.connMessages_eq_nil hnone⟩
  | @serving ms ms' _ h hms hresp hrest =>
    cases h with
    | getting _ h => exact ⟨ms, ms', _, h, hms, hresp, fun hs => hrest hs.1⟩
    | opening hpc _ h =>
      -- the last of what is taken is not yet dispatched
      obtain ⟨ms₁, ms₂, rfl, hresp₁, -⟩ := forall₂_append_left hresp.flip
      exact ⟨ms₁, ms₂ ++ ms', _, h, hms.trans (List.append_assoc ..), hresp₁.flip, fun hs => absurd hpc (hs.2 _)⟩

/-- The handler `k`, which is `h`, is that of the connection `j`, which is `c`. -/
structure Handles (s : Serving) (k : Nat) (h : Handler) (j : Nat) (c : TCPServerConnection) : Prop where
  handler : s.client.handlers[k]? = some h
  conn : s.link.agent.conns[j]? = some c
  started : c.run ≠ .accepted
  connectiontoken : h.connectiontoken = c.connectiontoken

/-- What the reads of the handler `k` have returned. -/
def readOf (k : Nat) (os : List Output) : List Bytes := results (readerOutputs k (clientOutputs os))

/-- A handler has got a message. -/
theorem Dispatches.known (hd : Dispatches es s os ms ms' cmds) (hk : s.client.handlers[k]? = some h) :
    h.connectiontoken ∈ cmds.map (·.connectiontoken) :=
  (hd.dispatched.known _).1 (Dict.contains_iff.2 ⟨k, (hd.dispatched.table _ k).2 ⟨h, hk, rfl⟩⟩)

section
variable (hp : Between full info cmd es s os) (hd : Dispatches es s os ms ms' cmds)
include hp hd

/-- The messages of a connection that are dispatched, and those that are not yet. -/
theorem Dispatches.data (hc : s.link.agent.conns[j]? = some c) (hrun : c.run ≠ .accepted) :
    (sentBy j (agentOutputs os)).map (·.data) = dataOf c.connectiontoken cmds ++ dataOf c.connectiontoken ms' := by
  rw [dataOf_respelt hd.respelt, ← dataOf_append, ← hd.messages, dataOf, Agent.filter_connMessages fun i m hm => ?_]
  obtain ⟨d, hi, hrun', hct⟩ := hp.hosts.serves hm
  rw [hct]
  constructor
  · exact hp.conns.conns.unique hi hc hrun' hrun
  · rintro rfl
    rw [hc] at hi
    cases hi
    rfl

theorem Dispatches.handles (hk : s.client.handlers[k]? = some h) : ∃ j c, Handles s k h j c := by
  have hmem := hd.known hk
  have hne : dataOf h.connectiontoken ms ≠ [] := fun hnil => by
    rw [← dataOf_respelt hd.respelt] at hnil
    exact dataOf_eq_nil_iff.1 hnil hmem
  obtain ⟨m, hm, hct⟩ := List.mem_map.1 (not_not.1 (mt dataOf_eq_nil_iff.2 hne))
  have hm' : m ∈ connMessages (agentOutputs os) := by
    rw [hd.messages]
    exact List.mem_append_left _ hm
  obtain ⟨j, hj⟩ := Agent.mem_connMessages.1 hm'
  obtain ⟨c, hc, hrun, hct'⟩ := hp.hosts.serves hj
  exact ⟨j, c, hk, hc, hrun, hct.symm.trans hct'⟩

theorem Dispatches.unique {k' j' : Nat} {c' : TCPServerConnection} (hh : Handles s k h j c)
    (hh' : Handles s k' h' j' c') : k = k' ↔ j = j' := by
  constructor
  · rintro rfl
    obtain rfl := Option.some.inj (hh.handler.symm.trans hh'.handler)
    exact hp.conns.conns.unique hh.conn hh'.conn hh.started hh'.started
      (hh.connectiontoken.symm.trans hh'.connectiontoken)
  · rintro rfl
    obtain rfl := Option.some.inj (hh.conn.symm.trans hh'.conn)
    have hk := (hd.dispatched.table _ k).2 ⟨h, hh.handler, hh.connectiontoken⟩
    have hk' := (hd.dispatched.table _ k').2 ⟨h', hh'.handler, hh'.connectiontoken⟩
    exact Option.some.inj (hk.symm.trans hk')

theorem Dispatches.handled (hs : s.Settled) (hc : s.link.agent.conns[j]? = some c) (hrun : c.run ≠ .accepted) :
    ∃ k h, Handles s k h j c := by
  obtain ⟨ds, hds, -⟩ := (hp.hosts.line hc).tail hrun
  have hdata := hd.data hp hc hrun
  rw [hds, hd.settled hs] at hdata
  have hne : dataOf c.connectiontoken cmds ≠ [] := fun hnil => by
    rw [hnil] at hdata
    cases hdata
  have hmem := not_not.1 (mt dataOf_eq_nil_iff.2 hne)
  obtain ⟨k, hk⟩ := Dict.contains_iff.1 ((hd.dispatched.known _).2 hmem)
  obtain ⟨h, hh, hct⟩ := (hd.dispatched.table _ _).1 hk
  exact ⟨k, h, hh, hc, hrun, hct⟩

/-- The queue of a handler and what has been taken from it are the first of what its connection has sent behind the
message that opened it. -/
theorem Dispatches.queue (hh : Handles s k h j c) : ∃ ds rest, ds = items (readerEvents k (clientEvents es)) ++
      h.in_queue.map QueueItem.data ++ rest ∧ Ends ds ∧ ds.flatten = (readBy j (agentOutputs os)).flatten ∧
      ([] ∈ ds → [] ∈ readBy j (agentOutputs os)) ∧ (c.run = .stopping ∨ c.run = .done → [] ∈ ds) ∧
      (s.Settled → rest = []) := by
  obtain ⟨ds, hds, hends, hflat, hmem, hstop⟩ := (hp.hosts.line hh.conn).tail hh.started
  have hdata := hd.data hp hh.conn hh.started
  rw [hds] at hdata
  have hin := hd.known hh.handler
  rw [hh.connectiontoken] at hin
  have hq := (hd.dispatched.handed k h hh.handler).queue
  rw [hh.connectiontoken] at hq
  cases hof : dataOf c.connectiontoken cmds with
  | nil => exact absurd hin (dataOf_eq_nil_iff.1 hof)
  | cons d₀ ds₁ =>
    rw [hof] at hdata hq
    obtain ⟨rfl, hrest⟩ := List.cons.inj hdata
    refine ⟨ds, dataOf c.connectiontoken ms', ?_, hends, hflat, hmem, hstop, fun hs => ?_⟩
    · rw [← hq]
      exact hrest
    · rw [hd.settled hs]
      rfl

end

/-! ### The client goes on -/

/-- A bound for the steps that the client takes before all is dispatched. -/
def weight (s : Serving) : Nat :=
  2 * s.link.down.length + match s.client.pc with
    | .opening _ => 1
    | _ => 0

theorem weight_le (s : Serving) : s.weight ≤ 2 * s.link.down.length + 1 := by
  unfold weight
  split <;> omega

/-- While a message waits the client can take one. -/
theorem step_message {b : Bytes} {down : List Bytes} (hd : s.link.down = b :: down)
    {r : WSNetworkTCPServer × List WSNetworkTCPServer.Output} (hs : s.client.step (.message b) = some r) :
    ∃ s' o, s.step (.client (.message b)) = some (s', o) ∧ s'.link.agent = s.link.agent ∧ s'.weight < s.weight := by
  have hstep : s.step (.client (.message b)) =
      some (({ s with link := { s.link with down } } : Serving).putClient r) := by simp [step, hd, hs]
  refine ⟨_, _, hstep, rfl, (weight_le _).trans_lt ?_⟩
  unfold weight
  rw [hd, List.length_cons]
  dsimp only
  omega

/-- As long as not all is dispatched the client can take a step. -/
theorem Between.proceeds (hp : Between full info cmd es s os) (ht : cmd.token.length = 16)
    (hid : s.link.agent.connId ≤ 10 ^ 16) (hns : ¬ s.Settled) : ∃ e s' o, e.OnlyReads ∧
      s.step (.client e) = some (s', o) ∧ s'.link.agent = s.link.agent ∧ s'.weight < s.weight := by
  have hdown (hpc : ∀ cmd, s.client.pc ≠ .opening cmd) : ∃ b down, s.link.down = b :: down :=
    List.exists_cons_of_ne_nil fun hnil => hns ⟨hnil, hpc⟩
  cases hp.stage ht hid with
  | connecting hpc =>
    obtain ⟨b, down, hd⟩ := hdown (by simp [hpc])
    have hs : s.client.step (.message b) = some (s.client.answer b) := by simp [WSNetworkTCPServer.step, hpc]
    obtain ⟨s', o, hstep⟩ := step_message hd hs
    exact ⟨.message b, s', o, trivial, hstep⟩
  | failed hpc _ hnil => exact absurd ⟨hnil, by simp [hpc]⟩ hns
  | serving h =>
    cases h with
    | getting hpc h =>
      obtain ⟨b, down, hd⟩ := hdown (by simp [hpc])
      have hs : s.client.step (.message b) = some (s.client.handle_in b) := by
        simp [WSNetworkTCPServer.step, hpc, h.running]
      obtain ⟨s', o, hstep⟩ := step_message hd hs
      exact ⟨.message b, s', o, trivial, hstep⟩
    | @opening cmds cmd' hpc hnew h =>
      have hs : s.client.step .opened = some (s.client.opened cmd') := by
        simp [WSNetworkTCPServer.step, hpc, h.running]
      obtain ⟨-, hpc', -⟩ := h.opened hnew
      have hstep : s.step (.client .opened) = some (s.putClient (s.client.opened cmd')) := by
        simp only [Serving.step, hs, Option.map_some]
      refine ⟨.opened, _, _, trivial, hstep, rfl, ?_⟩
      simp [weight, hpc', hpc]

/-- The client's own steps lead to where all is dispatched. -/
theorem Between.settles (hp : Between full info cmd es s os) (ht : cmd.token.length = 16)
    (hprot : cmd.protocol = "TCP") (hbind : cmd.bind = true) (hid : s.link.agent.connId ≤ 10 ^ 16) :
    ∃ (es' : List WSNetworkTCPServer.Event) (s' : Serving) (os' : List Output),
      Run Serving.step s (es'.map .client) s' os' ∧ (∀ e ∈ es', e.OnlyReads) ∧ s'.Settled ∧
        s'.link.agent = s.link.agent := by
  induction hw : s.weight using Nat.strong_induction_on generalizing es s os with
  | h n ih =>
    by_cases hs : s.Settled
    · exact ⟨[], s, [], .nil s, by simp, hs, rfl⟩
    · obtain ⟨e, s₁, o, he, hstep, hagent, hlt⟩ := hp.proceeds ht hid hs
      have he' : (Event.client e).Reliable := he
      obtain ⟨es', s', os', hrun, hes', hs', hagent'⟩ :=
        ih s₁.weight (hw ▸ hlt) (hp.step ht hprot hbind hid he' hstep) (by rwa [hagent]) rfl
      refine ⟨e :: es', s', o ++ os', .cons hstep hrun, fun e' he' => ?_, hs', hagent'.trans hagent⟩
      rcases List.mem_cons.1 he' with rfl | he'
      · exact he
      · exact hes' e' he'

/-! ### Handlers and peers -/

/-- Each peer's stream goes to one handler. -/
structure HandsOver (es : List Event) (s : Serving) (os : List Output) : Prop where
  /-- a handler is that of one connection, and a connection has one handler at most -/
  handles : ∀ k h, s.client.handlers[k]? = some h → ∃ j c, Handles s k h j c
  once : ∀ k h j c k' h' j' c', Handles s k h j c → Handles s k' h' j' c' → (k = k' ↔ j = j')
  /-- and has one when all is dispatched -/
  handled : s.Settled → ∀ j c, s.link.agent.conns[j]? = some c → c.run ≠ .accepted → ∃ k h, Handles s k h j c
  /-- to which the client's own steps lead -/
  settles : ∃ (es' : List WSNetworkTCPServer.Event) (s' : Serving) (os' : List Output),
    Run step s (es'.map .client) s' os' ∧ (∀ e ∈ es', e.OnlyReads) ∧ s'.Settled ∧ s'.link.agent = s.link.agent
  /-- no read raises, and what they return is from the stream of the peer -/
  returns : ∀ k, ∀ o ∈ readerOutputs k (clientOutputs os), ∃ b, o.2 = .ok b
  streams : ∀ k h j c, Handles s k h j c → (readOf k os).flatten <+: peerSent j es
  /-- once a read has returned nothing they have returned all that the peer has sent before closing -/
  whole : ∀ k h j c, Handles s k h j c → [] ∈ readOf k os →
    (readOf k os).flatten = peerSent j es ∧ ∃ p, s.peers[j]? = some p ∧ p.closed = true
  /-- and one does, at the latest when it takes what is in the queue -/
  ends : s.Settled → ∀ k h j c, Handles s k h j c → c.run = .stopping ∨ c.run = .done →
    [] ∈ readOf k os ∨ ∃ i ∈ h.in_queue, QueueItem.data i = []

theorem Between.handsOver (hp : Between full info cmd es s os) (ht : cmd.token.length = 16)
    (hprot : cmd.protocol = "TCP") (hbind : cmd.bind = true) (hid : s.link.agent.connId ≤ 10 ^ 16) :
    HandsOver es s os := by
  obtain ⟨ms, ms', cmds, hd⟩ := hp.dispatches ht hid
  have hreading : ∀ k h, s.client.handlers[k]? = some h →
      WSNetworkServerTCPReader.Reading (readerEvents k (clientEvents es)) h.reader
        (readerOutputs k (clientOutputs os)) := fun k h hk =>
      have hh := hd.dispatched.handed k h hk
      WSNetworkServerTCPReader.reading_run hh.run hh.reads
  refine ⟨fun k h hk => hd.handles hp hk, fun k h j c k' h' j' c' hh hh' => hd.unique hp hh hh',
    fun hs j c hc hrun => hd.handled hp hs hc hrun, hp.settles ht hprot hbind hid, fun k o ho => ?_,
    fun k h j c hh => ?_, fun k h j c hh hnil => ?_, fun hs k h j c hh hrun => ?_⟩
  · cases hk : s.client.handlers[k]? with
    | none =>
      rw [(hd.dispatched.unused k hk).2] at ho
      cases ho
    | some h => exact (hreading k h hk).returned o ho
  · obtain ⟨ds, rest, hds, -, hflat, -⟩ := hd.queue hp hh
    have hlossless := (WSNetworkServerTCPReader.intact_run (hd.dispatched.handed k h hh.handler).run).lossless
    rw [WSNetworkServerTCPReader.dequeued_eq] at hlossless
    rw [(hp.feeds j).bytes, ← hflat, hds, List.flatten_append, List.flatten_append, ← hlossless, List.append_assoc,
      List.append_assoc, List.append_assoc]
    exact List.prefix_append _ _
  · obtain ⟨ds, rest, hds, hends, hflat, hmem, -⟩ := hd.queue hp hh
    have hhanded := hd.dispatched.handed k h hh.handler
    have hitems : [] ∈ items (readerEvents k (clientEvents es)) := (hreading k h hh.handler).marker.1 hnil
    rw [hds, List.append_assoc] at hends hflat
    have hall := WSNetworkServerTCPReader.results_of_ended hhanded.run hhanded.reads
      (hends.of_prefix (List.prefix_append _ _)) hnil
    obtain ⟨hclosed, hunread⟩ := (hp.feeds j).ended (hmem (by
      rw [hds]
      exact List.mem_append_left _ (List.mem_append_left _ hitems)))
    have hpeer : j < s.peers.length := by
      rw [hp.peers]
      exact (List.getElem?_eq_some_iff.1 hh.conn).1
    rw [List.getElem?_eq_getElem hpeer] at hclosed
    refine ⟨?_, _, List.getElem?_eq_getElem hpeer, hclosed⟩
    rw [readOf, hall, WSNetworkServerTCPReader.dequeued_eq, ← hends.flatten_eq hitems, hflat, (hp.feeds j).bytes,
      hunread, List.append_nil]
  · obtain ⟨ds, rest, hds, -, -, -, hstop, hrest⟩ := hd.queue hp hh
    have hmem := hstop hrun
    rw [hds, hrest hs, List.append_nil] at hmem
    rcases List.mem_append.1 hmem with hmem | hmem
    · exact .inl ((hreading k h hh.handler).marker.2 hmem)
    · obtain ⟨i, hi, hnil⟩ := List.mem_map.1 hmem
      exact .inr ⟨i, hi, hnil⟩

/-- So it is in every run in which the agent has not yet given away a connection token of 17 bytes. -/
theorem handsOver_of_run {token : Bytes} {ip : String} {port bindtype : Int} (ht : token.length = 16)
    (h : Run step (start full info (newClient token ip port bindtype)) es s os) (he : ∀ e ∈ es, e.Reliable)
    (hid : s.link.agent.connId ≤ 10 ^ 16) : HandsOver es s os :=
  (between_of_run ht h he hid).handsOver ht rfl rfl hid

/-- A peer connects. -/
def connects (a : Agent) : List Event :=
  [.agent (.accept 0 (.pair "1.2.3.4" 7)), .agent (.conn a.conns.length (.start (connectionId a.connId)))]

/-- A client with its agent. -/
def oneServer : Serving := start true Agent.someInfo (newClient (List.replicate 16 3) "h" 53 1)

theorem reliable_connects (a : Agent) : ∀ e ∈ connects a, e.Reliable := by
  intro e he
  rw [connects, List.mem_cons, List.mem_singleton] at he
  rcases he with rfl | rfl
  · exact ⟨_, _, rfl, by decide, by decide, by decide⟩
  · exact rfl

/-- The client's answer to the CONNECT. -/
def continueFrame : Bytes := [0, 0, 0, 26, 0, 4] ++ List.replicate 16 3 ++ [0, 0, 0, 0]

/-- The server is opened. -/
def opening : List Event :=
  [.agent (.recv (Agent.connectFrame "TCP" 1) {}), .agent (.session 0 (.tcpServer .start)),
    .agent (.session 0 (.opening Agent.noCalls)), .client (.message continueFrame)]

theorem reliable_opening : ∀ e ∈ opening, e.Reliable := by
  simp [opening, Event.Reliable, WSNetworkTCPServer.Event.OnlyReads, Agent.Event.Reliable, Agent.Event.isSendFailed,
    Session.Event.isSendFailed]

/-- The messages of a connection: that it is open, three bytes, and the end of them. -/
def openFrame : Bytes :=
  [0, 0, 0, 45, 0, 200] ++ List.replicate 16 3 ++ [49, 48] ++ List.replicate 14 76 ++ [4, 1, 2, 3, 4, 0, 7]

def dataFrame : Bytes :=
  [0, 0, 0, 48, 0, 200] ++ List.replicate 16 3 ++ [49, 48] ++ List.replicate 14 76 ++ [255, 0, 0, 0, 0, 0, 0, 1, 2, 3]

def endFrame : Bytes :=
  [0, 0, 0, 45, 0, 200] ++ List.replicate 16 3 ++ [49, 48] ++ List.replicate 14 76 ++ [255, 0, 0, 0, 0, 0, 0]

/-- The message as the client decodes it. -/
def message (data : Bytes) : QueueItem :=
  ⟨some { token := List.replicate 16 3, connectiontoken := [49, 48] ++ List.replicate 14 76, data }, none⟩

/-- A peer sends three bytes and closes, and its handler reads two, then the rest, then the end. -/
def threeBytes : List Event :=
  [.agent (.conn 0 .sent), .peer 0 (.send [1, 2, 3]), .peer 0 .close, .agent (.conn 0 (.read [1, 2, 3])),
    .client (.message openFrame), .client .opened, .agent (.conn 0 .sent), .agent (.conn 0 (.read [])),
    .agent (.conn 0 .sent), .client (.message dataFrame), .client (.message endFrame), .client (.message endFrame),
    .client (.reader 0 (.call (.read 2))), .client (.reader 0 (.item (message [1, 2, 3]))),
    .client (.reader 0 (.call (.read (-1)))), .client (.reader 0 (.call (.read (-1)))),
    .client (.reader 0 (.item (message [])))]

theorem reliable_threeBytes : ∀ e ∈ threeBytes, e.Reliable := by
  simp [threeBytes, Event.Reliable, WSNetworkTCPServer.Event.OnlyReads, Agent.Event.Reliable, Agent.Event.isSendFailed,
    WSNetworkServerTCPReader.Event.OnlyReads, WSNetworkServerTCPReader.Call.IsRead]

theorem handsOver_of_run_threeBytes : ∃ es s os, Run step oneServer es s os ∧ readOf 0 os = [[1, 2], [3], []] ∧
    HandsOver es s os :=
  have ⟨s, os, h, hread, hid⟩ : ∃ s os,
      Run step oneServer (opening ++ connects (Agent.init true Agent.someInfo) ++ threeBytes) s os ∧
        readOf 0 os = [[1, 2], [3], []] ∧ s.link.agent.connId ≤ 10 ^ 16 :=
    ⟨_, _, .of_exec rfl, rfl, Nat.le_of_ble_eq_true rfl⟩
  ⟨_, s, os, h, hread, handsOver_of_run rfl h (List.forall_mem_append.2
    ⟨List.forall_mem_append.2 ⟨reliable_opening, reliable_connects _⟩, reliable_threeBytes⟩) hid⟩

/-! ### A connection token of 17 bytes -/

/-- The first message of a connection. -/
def hello (token : Bytes) (connId : Nat) : WSNServerSocketData :=
  { token, connectiontoken := connectionId connId, data := [], clientip := "1.2.3.4", clientport := 7 }

theorem run_connects {c : WSNConnect} {ts : TcpServer} (hss : s.link.agent.sessions = [⟨c, .tcpServer ts⟩])
    (hl : ts.listening = true) : ∃ s' os' d, Run step s (connects s.link.agent) s' os' ∧ s'.client = s.client ∧
      s'.link.down = s.link.down ++ Wsnet.frames [.SDSRV (hello ts.token s.link.agent.connId)] ∧
      s'.link.agent.sessions = [⟨c, .tcpServer ts⟩] ∧ s'.link.agent.connId = s.link.agent.connId + 1 ∧
      s'.link.agent.conns = s.link.agent.conns ++ [d] ∧ d.run ≠ .accepted ∧
      d.connectiontoken = connectionId s.link.agent.connId := by
  obtain ⟨l₁, haccept, hdown₁, hsessions₁, hid₁, hconns₁⟩ := Link.step_accept hss hl (.pair "1.2.3.4" 7)
  have hc : l₁.agent.conns[s.link.agent.conns.length]? = some { token := ts.token, peername := .pair "1.2.3.4" 7 } := by
    simp [hconns₁]
  obtain ⟨l₂, o, hstart, hdown, hsessions, hid, hconns⟩ := Link.step_start hc rfl rfl
  rw [hid₁] at hstart hdown hid hconns
  have h₁ : s.step (.agent (.accept 0 (.pair "1.2.3.4" 7))) = some (⟨s.client, l₁, s.peers ++ [({} : Peer)]⟩, []) := by
    simp [step, haccept, putLink]
  have h₂ : step ⟨s.client, l₁, s.peers ++ [({} : Peer)]⟩
      (.agent (.conn s.link.agent.conns.length (.start (connectionId s.link.agent.connId)))) =
        some (⟨s.client, l₂, s.peers ++ [({} : Peer)]⟩, o.map .agent) := by
    simp [step, hstart, putLink]
  rw [hconns₁, List.set_append_right _ _ le_rfl, Nat.sub_self] at hconns
  rw [hdown₁] at hdown
  exact ⟨_, _, _, .cons h₁ (.single h₂), rfl, hdown, (hsessions.trans hsessions₁).trans hss, hid, hconns, by simp, rfl⟩

/-- All is dispatched, and `n` peers have connected. -/
structure Connected (s : Serving) (n : Nat) : Prop where
  settled : s.Settled
  server : ∃ c ts, s.link.agent.sessions = [⟨c, .tcpServer ts⟩] ∧ ts.listening = true
  connId : s.link.agent.connId = 10 + n
  conns : s.link.agent.conns.length = n

theorem connected_zero : ∃ s os, Run step oneServer opening s os ∧ Connected s 0 :=
  ⟨_, _, .of_exec rfl, ⟨rfl, fun cmd h => (by cases h)⟩, ⟨_, _, rfl, rfl⟩, rfl, rfl⟩

theorem exists_connected (n : Nat) (hn : 10 + n ≤ 10 ^ 16) :
    ∃ es s os, Run step oneServer es s os ∧ (∀ e ∈ es, e.Reliable) ∧ Connected s n := by
  induction n with
  | zero =>
    obtain ⟨s, os, hrun, hs⟩ := connected_zero
    exact ⟨_, s, os, hrun, reliable_opening, hs⟩
  | succ n ih =>
    obtain ⟨es, s, os, hrun, hes, hs⟩ := ih (by omega)
    obtain ⟨c, ts, hss, hl⟩ := hs.server
    obtain ⟨s₁, os₁, d, hrun₁, -, -, hss₁, hid, hconns, -, -⟩ := run_connects hss hl
    have hrun₁ := hrun.append hrun₁
    have hes₁ : ∀ e ∈ es ++ connects s.link.agent, e.Reliable := fun e he =>
      (List.mem_append.1 he).elim (hes e) (reliable_connects _ e)
    rw [hs.connId] at hid
    obtain ⟨es₂, s₂, os₂, hrun₂, hes₂, hsettled, hagent⟩ :=
      (between_of_run rfl hrun₁ hes₁ (by omega)).settles rfl rfl rfl (by omega)
    refine ⟨_, s₂, _, hrun₁.append hrun₂, fun e he => ?_, hsettled, ?_, ?_, ?_⟩
    · rcases List.mem_append.1 he with he | he
      · exact hes₁ e he
      · obtain ⟨e', he', rfl⟩ := List.mem_map.1 he
        exact hes₂ e' he'
    · rw [hagent]
      exact ⟨c, ts, hss₁, hl⟩
    · rw [hagent, hid]
      rfl
    · rw [hagent, hconns, List.length_append, hs.conns]
      rfl

/-- Where all is dispatched and a connection has been accepted, the client waits for the next message. -/
theorem Between.getting (hp : Between full info cmd es s os) (ht : cmd.token.length = 16)
    (hid : s.link.agent.connId ≤ 10 ^ 16) (hs : s.Settled) (hne : s.link.agent.conns ≠ []) :
    s.client.pc = .getting ∧ s.client.in_cancelled = false := by
  cases hp.stage ht hid with
  | connecting _ _ hnone => exact absurd (hnone hs.1) hne
  | failed _ _ _ hnone => exact absurd hnone hne
  | serving h =>
    cases h with
    | getting hpc h => exact ⟨hpc, h.running⟩
    | opening hpc => exact absurd hpc (hs.2 _)

/-- The frame of a connection token of 17 bytes, of which 16 are read; the last is no IP version. -/
theorem hello_frame : ∃ b e, Wsnet.frames [.SDSRV (hello (List.replicate 16 3) (10 ^ 16))] = [b] ∧
    CMD.fromBytes b = .error e := by
  have hid : connectionId (10 ^ 16) = 49 :: List.replicate 16 48 := by decide +kernel
  rw [hello, hid]
  exact ⟨_, _, rfl, rfl⟩

theorem not_handsOver : ∃ es s os, Run step oneServer es s os ∧ (∀ e ∈ es, e.Reliable) ∧ ¬ HandsOver es s os := by
  obtain ⟨es, s, os, hrun, hes, hs⟩ := exists_connected (10 ^ 16 - 10) (by omega)
  have hid : s.link.agent.connId = 10 ^ 16 := by
    rw [hs.connId]
    omega
  have hp := between_of_run rfl hrun hes hid.le
  obtain ⟨hpc, hrunning⟩ := hp.getting rfl hid.le hs.settled fun hnil => by
    have hlen := hs.conns
    rw [hnil, List.length_nil] at hlen
    omega
  obtain ⟨c, ts, hss, hl⟩ := hs.server
  obtain ⟨s₁, os₁, d, hrun₁, hclient, hdown, -, -, hconns, hstarted, hct⟩ := run_connects hss hl
  obtain ⟨b, e, hframe, hread⟩ := hello_frame
  have htoken : ts.token = List.replicate 16 3 := by
    cases hp.hosts with
    | fresh ha =>
      rw [ha] at hss
      cases hss
    | hosting h =>
      obtain ⟨_, _, hss', htok, -⟩ := h.session
      rw [hss'] at hss
      cases hss
      exact htok
  rw [hs.settled.1, htoken, hid, hframe, List.nil_append] at hdown
  -- the client ends with the frame that it cannot read
  have hstep : s₁.step (.client (.message b)) =
      some (({ s₁ with link := { s₁.link with down := [] } } : Serving).putClient s₁.client.finish) := by
    simp [step, hdown, WSNetworkTCPServer.step, hclient, hpc, hrunning, WSNetworkTCPServer.handle_in, hread]
  refine ⟨_, _, _, (hrun.append hrun₁).append (.single hstep), ?_, fun hover => ?_⟩
  · intro e he
    rcases List.mem_append.1 he with he | he
    · exact (List.mem_append.1 he).elim (hes e) (reliable_connects _ e)
    · rw [List.mem_singleton.1 he]
      trivial
  · have hd : s₁.link.agent.conns[s.link.agent.conns.length]? = some d := by simp [hconns]
    obtain ⟨k, h, hh⟩ := hover.handled ⟨rfl, fun cmd h => (by cases h)⟩ _ d hd hstarted
    have hk : s₁.client.terminate.1.handlers[k]? = some h := hh.handler
    rw [WSNetworkTCPServer.handlers_terminate, hclient] at hk
    obtain ⟨j, c', hh'⟩ := (hp.handsOver rfl rfl rfl hid.le).handles k h hk
    obtain ⟨n, hn, hid'⟩ := hp.conns.conns.fresh hh'.conn hh'.started
    have heq : connectionId n = connectionId (10 ^ 16) := by
      rw [← hid', ← hh'.connectiontoken, hh.connectiontoken, hct, hid]
    have := Agent.connectionId_inj heq
    omega

end Serving

end Pyodide

end Wsnet
