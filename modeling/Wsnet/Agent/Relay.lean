import Wsnet.Agent.Hosting

/-!
# An agent with one UDP client

`Relay` is an agent together with the two queues of a UDP client session: `in_queue`, into which the protocol of the
socket puts what arrives, and `writer_queue`, into which `process_incoming` puts what the operator sends.
-/

namespace Wsnet

/-- Data and an address. -/
abbrev Packet := Bytes × String × Int

/-- The data that was received, without the errors. -/
def Datagram.packet? : Datagram → Option Packet
  | data b ip port => some (b, ip, port)
  | error _ => none

def packets (ds : List Datagram) : List Packet := ds.filterMap Datagram.packet?

def WSNServerSocketData.packet (c : WSNServerSocketData) : Packet := (c.data, c.clientip, c.clientport)

/-- The SDSRV of a UDP client for a packet. -/
def Packet.message (token : Bytes) (p : Packet) : WSNServerSocketData :=
  ⟨token, UdpClient.connectionToken, p.1, p.2.1, p.2.2⟩

/-- What a packet is when it has been written and read: its address may be spelt otherwise. -/
def Packet.readdressed (p : Packet) : Packet := (p.1, CMD.decodedAddress p.2.1, p.2.2)

/-- The frame of the packet fits into four bytes of length, and its port into two. -/
def Packet.Fits (p : Packet) : Prop := 40 + addressSize p.2.1 + p.1.length < 256 ^ 4 ∧ 0 ≤ p.2.2 ∧ p.2.2 < 65536

structure Relay where
  link : Link
  in_queue : List Datagram := []
  writer_queue : List WSNServerSocketData := []

namespace Relay

inductive Event
  | agent (e : Agent.Event)
  /-- the protocol puts a datagram or an error on the queue -/
  | arrives (d : Datagram)

inductive Output
  | agent (o : Agent.Output)
  /-- `transport.sendto` returns -/
  | sendto (p : Packet)

/-- What `process_incoming` puts into the queue of the session. -/
def queued (a : Agent) (data : Bytes) : List WSNServerSocketData :=
  match CMD.fromBytes data with
  | .ok (.SDSRV c) =>
    if a.processQueues.contains c.token = false ∧ a.serverTcpConnections.contains c.token = false ∧
        a.serverQueues.get? c.token = some c.connectiontoken then [c]
    else []
  | _ => []

/-- A step of the agent. -/
def runAgent (s : Relay) (e : Agent.Event) (o : List Output) : Option (Relay × List Output) :=
  (s.link.step e).map fun r => ({ s with link := r.1 }, r.2.map .agent ++ o)

def step (s : Relay) : Event → Option (Relay × List Output)
  | .arrives d => if s.link.agent.sessions = [] then none else some ({ s with in_queue := s.in_queue ++ [d] }, [])
  | .agent (.recv data f) =>
    { s with writer_queue := s.writer_queue ++ queued s.link.agent data }.runAgent (.recv data f) []
  | .agent (.session i (.udpClient (.received d))) =>
    match s.in_queue with
    | d' :: rest =>
      if d = d' then { s with in_queue := rest }.runAgent (.session i (.udpClient (.received d))) [] else none
    | [] => none
  | .agent (.session i (.udpClient (.writerGot data raises))) =>
    match s.writer_queue with
    | c :: rest =>
      if data = c.data then
        { s with writer_queue := rest }.runAgent (.session i (.udpClient (.writerGot data raises)))
          (if data = [] ∨ raises then [] else [.sendto c.packet])
      else none
    | [] => none
  | .agent e => s.runAgent e []

end Relay

/-! ### The session -/

namespace UdpClient

/-- The writer is created when the socket is open. -/
def Wf (s : UdpClient) : Prop := s.main = .opening → s.writer = .none

/-- What a step of the session can do. -/
inductive Turn (s : UdpClient) : Event → UdpClient → List Effect → Prop
  | opened (hm : s.main = .opening) : Turn s .opened { s with main := .sendingContinue, writer := .created }
      [.opened, .setServerQueue connectionToken, .sent (continueReply s.token)]
  | openFailed (hm : s.main = .opening) : Turn s .openFailed { s with main := .done } []
  | sends (p : Packet) (hm : s.main = .receiving) : Turn s (.received (.data p.1 p.2.1 p.2.2))
      { s with main := .sendingData } [.sent (.SDSRV (p.message s.token))]
  | skips {s' : UdpClient} (exc : Option String) (hm : s.main = .receiving) (hm' : s'.main ≠ .opening) (hw : s'.writer = s.writer) :
    Turn s (.received (.error exc)) s' []
  | hands {s' : UdpClient} (data : Bytes) (hd : data ≠ []) (hw : s.writer = .waiting) (hw' : s'.writer ≠ .none)
    (hm : s'.main = s.main) : Turn s (.writerGot data false) s' []
  | stops {s' : UdpClient} (data : Bytes) (raises : Bool) (h : data = [] ∨ raises = true) (hw : s.writer = .waiting)
    (hw' : s'.writer = .done) (hm : s'.main = s.main) : Turn s (.writerGot data raises) s' []
  | other {s' : UdpClient} {e : Event} (hr : ∀ d, e ≠ .received d) (hg : ∀ data raises, e ≠ .writerGot data raises) (hm : s.main ≠ .opening)
    (hm' : s'.main ≠ .opening) (hdone : s.main = .done → s'.main = .done)
    (hwdone : s.writer = .done → s'.writer = .done) (hnone : s'.writer = .none ↔ s.writer = .none) : Turn s e s' []

variable {s s' : UdpClient} {e : Event} {o : List Effect}

theorem turn_of_step (hwf : s.Wf) (h : s.step e = some (s', o)) : Turn s e s' o := by
  have hloop := loop_main s
  have hwriter := loop_writer s
  cases e with
  | opened =>
    simp only [step] at h
    split_ifs at h with hm
    cases h
    exact .opened hm
  | openFailed =>
    simp only [step] at h
    split_ifs at h with hm
    cases h
    exact .openFailed hm
  | sent =>
    simp only [step] at h
    split at h <;> cases h
    · rename_i hm
      refine .other nofun nofun (by simp [hm]) ?_ (by simp [hm]) (by simp) (by simp)
      rcases hloop with h | h <;> simp [h]
    · rename_i hm
      refine .other nofun nofun (by simp [hm]) ?_ (by simp [hm]) (by simp) (by simp)
      rcases hloop with h | h <;> simp [h]
  | sendFailed =>
    simp only [step] at h
    split at h <;> cases h
    · rename_i hm
      exact .other nofun nofun (by simp [hm]) (by simp) (fun _ => rfl) id .rfl
    · rename_i hm
      exact .other nofun nofun (by simp [hm]) (by simp) (fun _ => rfl) id .rfl
  | received d =>
    cases d with
    | data data ip port =>
      simp only [step] at h
      split_ifs at h with hm
      cases h
      exact .sends (data, ip, port) hm
    | error exc =>
      cases exc with
      | none =>
        simp only [step] at h
        split_ifs at h with hm
        cases h
        exact .skips none hm (by simp) rfl
      | some exc =>
        simp only [step] at h
        split_ifs at h with hm
        cases h
        refine .skips (some exc) hm ?_ hwriter
        rcases hloop with h | h <;> simp [h]
  | writerStart =>
    simp only [step] at h
    split_ifs at h with hw hd
    · cases h
      have hm : s.main ≠ .opening := fun hm => by simp [hwf hm] at hw
      exact .other nofun nofun hm hm id (by simp [hw]) (by simp [hw])
    · cases h
      have hm : s.main ≠ .opening := fun hm => by simp [hwf hm] at hw
      exact .other nofun nofun hm hm id (by simp [hw]) (by simp [hw])
  | writerGot data raises =>
    simp only [step] at h
    split_ifs at h with hw hstop hd
    · cases h
      exact .stops data raises hstop hw rfl rfl
    · cases h
      obtain ⟨hne, hr⟩ := not_or.1 hstop
      obtain rfl : raises = false := by simpa using hr
      exact .hands data hne hw (by simp) rfl
    · cases h
      obtain ⟨hne, hr⟩ := not_or.1 hstop
      obtain rfl : raises = false := by simpa using hr
      exact .hands data hne hw (by simp [hw]) rfl

end UdpClient

theorem Session.udpClient_of_step {cmd : WSNConnect} {u : UdpClient} {s' : Session} {e : Session.Event}
    {o : List Effect} (hs : Session.step ⟨cmd, .udpClient u⟩ e = some (s', o)) :
    ∃ e' u', s' = ⟨cmd, .udpClient u'⟩ ∧ u.step e' = some (u', o) ∧
      (e = .udpClient e' ∨ (e' = .opened ∨ e' = .openFailed) ∧ ∃ os, e = .opening os) := by
  obtain ⟨hcmd, htask⟩ := Session.step_eq_some hs
  obtain ⟨cmd', task⟩ := s'
  obtain rfl : cmd = cmd' := hcmd.symm
  generalize hk : Session.taskEvent ⟨cmd, .udpClient u⟩ e = e' at htask
  cases htask with
  | @udpClient _ u' e' o hstep =>
    refine ⟨e', u', rfl, hstep, ?_⟩
    cases e with
    | opening os =>
      simp only [Session.taskEvent, Session.outcome] at hk
      split at hk <;> cases hk
      · exact .inr ⟨.inl rfl, os, rfl⟩
      · exact .inr ⟨.inr rfl, os, rfl⟩
    | udpClient e =>
      cases hk
      exact .inl rfl
    | _ => cases hk

namespace Relay

/-- What a step does to the agent and the queues. -/
inductive Moves (s : Relay) : Event → Relay → List Output → Prop
  | arrives (d : Datagram) (hs : s.link.agent.sessions ≠ []) :
    Moves s (.arrives d) { s with in_queue := s.in_queue ++ [d] } []
  | recv {data : Bytes} {f : FileOs} {l : Link} {o : List Agent.Output} (hs : s.link.step (.recv data f) = some (l, o)) :
    Moves s (.agent (.recv data f)) { s with link := l, writer_queue := s.writer_queue ++ queued s.link.agent data }
      (o.map .agent)
  | received {i : Nat} {d : Datagram} {rest : List Datagram} {l : Link} {o : List Agent.Output}
      (hq : s.in_queue = d :: rest)
    (hs : s.link.step (.session i (.udpClient (.received d))) = some (l, o)) :
    Moves s (.agent (.session i (.udpClient (.received d)))) { s with link := l, in_queue := rest } (o.map .agent)
  | got {i : Nat} {raises : Bool} {c : WSNServerSocketData} {rest : List WSNServerSocketData} {l : Link}
    {o : List Agent.Output} (hq : s.writer_queue = c :: rest)
    (hs : s.link.step (.session i (.udpClient (.writerGot c.data raises))) = some (l, o)) :
    Moves s (.agent (.session i (.udpClient (.writerGot c.data raises)))) { s with link := l, writer_queue := rest }
      (o.map .agent ++ if c.data = [] ∨ raises then [] else [.sendto c.packet])
  | agent {e : Agent.Event} {l : Link} {o : List Agent.Output} (hr : ∀ data f, e ≠ .recv data f)
    (hd : ∀ i d, e ≠ .session i (.udpClient (.received d)))
    (hg : ∀ i data raises, e ≠ .session i (.udpClient (.writerGot data raises))) (hs : s.link.step e = some (l, o)) :
    Moves s (.agent e) { s with link := l } (o.map .agent)

theorem runAgent_eq_some {s s' : Relay} {e : Agent.Event} {o o' : List Output} (h : s.runAgent e o = some (s', o')) :
    ∃ l oa, s.link.step e = some (l, oa) ∧ s' = { s with link := l } ∧ o' = oa.map .agent ++ o := by
  obtain ⟨⟨l, oa⟩, hs, heq⟩ := Option.map_eq_some_iff.1 h
  cases heq
  exact ⟨l, oa, hs, rfl, rfl⟩

theorem moves_of_step {s s' : Relay} {e : Event} {o : List Output} (h : s.step e = some (s', o)) : Moves s e s' o := by
  have hother : ∀ {e : Agent.Event}, (∀ data f, e ≠ .recv data f) →
      (∀ i d, e ≠ .session i (.udpClient (.received d))) →
      (∀ i data raises, e ≠ .session i (.udpClient (.writerGot data raises))) → s.runAgent e [] = some (s', o) →
      Moves s (.agent e) s' o := by
    intro e hr hd hg h
    obtain ⟨l, oa, hs, rfl, rfl⟩ := runAgent_eq_some h
    rw [List.append_nil]
    exact .agent hr hd hg hs
  cases e with
  | arrives d =>
    simp only [step] at h
    split_ifs at h with hs
    cases h
    exact .arrives d hs
  | agent e =>
    cases e with
    | recv data f =>
      obtain ⟨l, oa, hs, rfl, rfl⟩ := runAgent_eq_some h
      rw [List.append_nil]
      exact .recv hs
    | session i e =>
      cases e with
      | udpClient e =>
        cases e with
        | received d =>
          simp only [step] at h
          split at h
          · rename_i d' rest hq
            split_ifs at h with hd
            obtain ⟨l, oa, hs, rfl, rfl⟩ := runAgent_eq_some h
            rw [List.append_nil]
            exact .received (hd ▸ hq) hs
          · cases h
        | writerGot data raises =>
          simp only [step] at h
          split at h
          · rename_i c rest hq
            by_cases hd : data = c.data
            · rw [if_pos hd] at h
              obtain ⟨l, oa, hs, rfl, rfl⟩ := runAgent_eq_some h
              subst hd
              exact .got hq hs
            · rw [if_neg hd] at h
              cases h
          · cases h
        | _ => exact hother nofun nofun nofun h
      | _ => exact hother nofun nofun nofun h
    | _ => exact hother nofun nofun nofun h

/-! ### What holds of the agent -/

/-- What has come from the remote end, been sent for it, come from the operator, and been handed to the socket. -/
def arrived (es : List Event) : List Packet :=
  es.filterMap fun
    | .arrives d => d.packet?
    | _ => none

def Output.relayed? : Output → Option Packet
  | .agent (.session _ (.sent (.SDSRV m))) => some m.packet
  | _ => none

def Output.received? : Output → Option Packet
  | .agent (.received (.SDSRV m)) => some m.packet
  | _ => none

def Output.handed? : Output → Option Packet
  | .sendto p => some p
  | _ => none

def relayed (os : List Output) : List Packet := os.filterMap Output.relayed?
def received (os : List Output) : List Packet := os.filterMap Output.received?
def handed (os : List Output) : List Packet := os.filterMap Output.handed?

def agentOutputs (os : List Output) : List Agent.Output :=
  os.filterMap fun
    | .agent o => some o
    | _ => none

/-- The agent with the session `u` of the CONNECT `c`, whose socket has been opened or not. -/
def relaying (full : Bool) (info : WSNGetInfoReply) (c : WSNConnect) (u : UdpClient) (opened : Bool) : Agent :=
  { Agent.init full info with
    sessions := [⟨c, .udpClient u⟩]
    serverQueues := if opened then Dict.empty.set c.token UdpClient.connectionToken else Dict.empty }

/-- What the operator sends once the socket is open. -/
def FromOperator (token : Bytes) : CMD → Prop
  | .SDSRV m => m.token = token ∧ m.connectiontoken = UdpClient.connectionToken
  | .OK m => m.token = token
  | _ => False

/-- The answer, and what has been relayed. -/
def said (token : Bytes) (opened : Bool) (ps : List Packet) : List CMD :=
  (if opened then [continueReply token] else []) ++ ps.map fun p => .SDSRV (p.message token)

/-- The agent of the CONNECT `c`, that has the session `u`. -/
structure Relays (full : Bool) (info : WSNGetInfoReply) (c : WSNConnect) (u : UdpClient) (opened : Bool)
    (es : List Event) (s : Relay) (os : List Output) : Prop where
  agent : s.link.agent = relaying full info c u opened
  token : u.token = c.token
  wf : u.Wf
  opened_iff : opened = true ↔ u.writer ≠ .none
  closed : opened = false → (u.main = .opening ∨ u.main = .done) ∧ relayed os = []
  said : Agent.sentMessages (agentOutputs os) = said c.token opened (relayed os)
  inbound_le : relayed os <+: arrived es
  inbound : u.main ≠ .done → arrived es = relayed os ++ packets s.in_queue
  outbound_le : handed os <+: received os
  outbound : u.writer ≠ .done → received os = handed os ++ s.writer_queue.map (·.packet)

section Relays
variable {full : Bool} {info : WSNGetInfoReply} {c : WSNConnect} {u u' : UdpClient} {opened opened' : Bool}
  {es es' : List Event} {s s' : Relay} {os os' : List Output} {e : Event} {o : List Output} {oa : List Agent.Output}

@[simp] theorem arrived_append : arrived (es ++ es') = arrived es ++ arrived es' := List.filterMap_append
@[simp] theorem relayed_append : Relay.relayed (os ++ os') = Relay.relayed os ++ Relay.relayed os' :=
  List.filterMap_append
@[simp] theorem received_append : received (os ++ os') = received os ++ received os' := List.filterMap_append
@[simp] theorem handed_append : Relay.handed (os ++ os') = Relay.handed os ++ Relay.handed os' :=
  List.filterMap_append
@[simp] theorem agentOutputs_append : agentOutputs (os ++ os') = agentOutputs os ++ agentOutputs os' :=
  List.filterMap_append

@[simp] theorem agentOutputs_agent (oa : List Agent.Output) : agentOutputs (oa.map .agent) = oa := by
  rw [agentOutputs, List.filterMap_map]
  exact List.filterMap_some

@[simp] theorem handed_agent (oa : List Agent.Output) : Relay.handed (oa.map .agent) = [] := by
  rw [Relay.handed, List.filterMap_map, List.filterMap_eq_nil_iff]
  exact fun x _ => rfl

/-- What the agent does with a message of the operator. -/
theorem step_fromOperator {data : Bytes} {f : FileOs} {cmd : CMD} (hc : CMD.fromBytes data = .ok cmd)
    (h : FromOperator c.token cmd) : (relaying full info c u true).step (.recv data f) =
      some (relaying full info c u true, [.received cmd, .returned true]) := by
  cases cmd with
  | SDSRV m =>
    obtain ⟨htok, hct⟩ := h
    simp [Agent.step, relaying, Agent.init, hc, Agent.processIncoming, CMD.token, CMD.type, Agent.dispatch,
      Agent.serverData, htok, Dict.contains, Agent.return_, Agent.andThen]
  | OK m =>
    simp [Agent.step, relaying, Agent.init, hc, Agent.processIncoming, CMD.token, CMD.type, Agent.dispatch,
      Dict.contains, Agent.return_, Agent.andThen, CMDType.value]
  | _ => exact h.elim

/-- The agent takes no other step than one of its session. -/
theorem step_session {e : Agent.Event} {a' : Agent} (hr : ∀ data f, e ≠ .recv data f)
    (hs : (relaying full info c u opened).step e = some (a', oa)) : ∃ i e' ue u' ou, e = .session i e' ∧
      u.step ue = some (u', ou) ∧
      (e' = .udpClient ue ∨ (ue = .opened ∨ ue = .openFailed) ∧ ∃ os, e' = .opening os) ∧
      (a', oa) = (relaying full info c u opened).putSession 0 ⟨c, .udpClient u'⟩ ou := by
  cases Agent.idleStep_of_step rfl rfl hr hs with
  | @session i e' x x' o hi hstep =>
    obtain ⟨rfl, rfl⟩ := Agent.getElem?_singleton_eq_some hi
    obtain ⟨ue, u', rfl, hu, he⟩ := Session.udpClient_of_step hstep
    exact ⟨0, e', ue, u', o, rfl, hu, he, rfl⟩
  | accept hi =>
    obtain ⟨-, h⟩ := Agent.getElem?_singleton_eq_some hi
    cases h
  | conn hj => cases hj

/-- Outputs that send the messages `cs`, with the packets `ps`, receive nothing, and hand over `hs`. -/
structure Does (x : List Output) (cs : List CMD) (ps hs : List Packet) : Prop where
  sent : Agent.sentMessages (agentOutputs x) = cs
  relayed : Relay.relayed x = ps
  received : Relay.received x = []
  handed : Relay.handed x = hs

theorem does_session (token : Bytes) (ou : List Effect) {ps hs : List Packet} {extra : List Output}
    (hps : (messages ou).filterMap (fun | .SDSRV m => some m.packet | _ => none) = ps)
    (hextra : Does extra [] [] hs) :
    Does ((ou.map (.session token)).map .agent ++ extra) (messages ou) ps hs where
  sent := by
    rw [agentOutputs_append, agentOutputs_agent, Agent.sentMessages_append, hextra.sent, List.append_nil]
    exact (Agent.outputs_session token ou).2.2.2
  relayed := by
    rw [relayed_append, hextra.relayed, List.append_nil, ← hps, Relay.relayed, List.map_map, List.filterMap_map, messages,
      List.filterMap_filterMap]
    refine List.filterMap_congr fun x _ => ?_
    cases x with
    | sent m => cases m <;> rfl
    | _ => rfl
  received := by
    rw [received_append, hextra.received, List.append_nil, Relay.received, List.map_map, List.filterMap_map,
      List.filterMap_eq_nil_iff]
    exact fun x _ => rfl
  handed := by rw [handed_append, handed_agent, hextra.handed, List.nil_append]

theorem does_nil : Does [] [] [] [] := ⟨rfl, rfl, rfl, rfl⟩

theorem does_sendto (p : Packet) : Does [.sendto p] [] [] [p] := ⟨rfl, rfl, rfl, rfl⟩

theorem Relays.next (hp : Relays full info c u opened es s os) {x : List Output} {cs : List CMD} {ps hs : List Packet}
    {l : Link} {iq : List Datagram} {wq : List WSNServerSocketData} (hx : Does x cs ps hs)
    (hagent : l.agent = relaying full info c u' opened') (htok : u'.token = c.token) (hm : u'.main ≠ .opening)
    (hiff : opened' = true ↔ u'.writer ≠ .none) (hle : opened = true → opened' = true)
    (hclosed : opened' = false → u'.main = .done ∧ ps = [])
    (hsaid : Relay.said c.token opened' (Relay.relayed os ++ ps) = Relay.said c.token opened (Relay.relayed os) ++ cs)
    (hin : Relay.relayed os ++ ps <+: arrived es)
    (hin' : u'.main ≠ .done → arrived es = Relay.relayed os ++ ps ++ packets iq)
    (hout : Relay.handed os ++ hs <+: Relay.received os)
    (hout' : u'.writer ≠ .done → Relay.received os = Relay.handed os ++ hs ++ wq.map (·.packet)) :
    Relays full info c u' opened' es ⟨l, iq, wq⟩ (os ++ x) where
  agent := hagent
  token := htok
  wf h := absurd h hm
  opened_iff := hiff
  closed h := by
    obtain ⟨hd, hps⟩ := hclosed h
    have hfalse : opened = false := by
      by_contra hne
      rw [hle (by simpa using hne)] at h
      cases h
    rw [relayed_append, hx.relayed, hps, (hp.closed hfalse).2]
    exact ⟨.inr hd, rfl⟩
  said := by rw [agentOutputs_append, Agent.sentMessages_append, hp.said, hx.sent, relayed_append, hx.relayed, hsaid]
  inbound_le := by rwa [relayed_append, hx.relayed]
  inbound h := by
    rw [relayed_append, hx.relayed]
    exact hin' h
  outbound_le := by rwa [handed_append, hx.handed, received_append, hx.received, List.append_nil]
  outbound h := by
    rw [handed_append, hx.handed, received_append, hx.received, List.append_nil]
    exact hout' h

theorem Relays.step_session (hp : Relays full info c u opened es s os) {ue : UdpClient.Event} {ou : List Effect}
    {l : Link} {iq : List Datagram} {wq : List WSNServerSocketData} (extra : List Output)
    (hu : u.step ue = some (u', ou))
    (hl : (l.agent, oa) = (relaying full info c u opened).putSession 0 ⟨c, .udpClient u'⟩ ou)
    (hiq : (∃ d, ue = .received d ∧ s.in_queue = d :: iq) ∨ (∀ d, ue ≠ .received d) ∧ iq = s.in_queue)
    (hwq : (∃ m raises, ue = .writerGot m.data raises ∧ s.writer_queue = m :: wq ∧
        extra = if m.data = [] ∨ raises then [] else [.sendto m.packet]) ∨
      (∀ data raises, ue ≠ .writerGot data raises) ∧ wq = s.writer_queue ∧ extra = []) :
    ∃ opened', (opened = true → opened' = true) ∧
      Relays full info c u' opened' es ⟨l, iq, wq⟩ (os ++ (oa.map .agent ++ extra)) := by
  have htok := (UdpClient.token_of_step hu).trans hp.token
  -- the queues where nothing is taken from them
  have hin : (∀ d, ue ≠ .received d) → iq = s.in_queue := by
    intro hne
    rcases hiq with ⟨d, he, -⟩ | ⟨-, h⟩
    · exact absurd he (hne d)
    · exact h
  have hout : (∀ data raises, ue ≠ .writerGot data raises) → wq = s.writer_queue ∧ extra = [] := by
    intro hne
    rcases hwq with ⟨m, raises, he, -⟩ | ⟨-, h⟩
    · exact absurd he (hne _ _)
    · exact h
  -- a session that has got beyond the opening has its socket, or is over
  have hopened : u.main ≠ .opening → u.main ≠ .done → opened = true := fun hm hd => by
    by_contra h
    exact (hp.closed (by simpa using h)).1.elim hm hd
  obtain ⟨hagent, rfl⟩ := Prod.mk.inj hl
  -- a step that sends nothing
  have hquiet : ∀ {hs : List Packet}, ou = [] → Does extra [] [] hs → u'.main ≠ .opening →
      (opened = true ↔ u'.writer ≠ .none) → (opened = false → u'.main = .done) →
      (u'.main ≠ .done → arrived es = Relay.relayed os ++ packets iq) → Relay.handed os ++ hs <+: Relay.received os →
      (u'.writer ≠ .done → Relay.received os = Relay.handed os ++ hs ++ wq.map (·.packet)) →
      ∃ opened', (opened = true → opened' = true) ∧ Relays full info c u' opened' es ⟨l, iq, wq⟩
        (os ++ ((ou.map (.session c.token)).map .agent ++ extra)) := by
    rintro hs rfl hx hm hiff hclosed hin' hpre hout'
    have hx' : Does _ [] [] hs := does_session c.token [] rfl hx
    refine ⟨opened, id, hp.next hx' hagent htok hm hiff id (fun h => ⟨hclosed h, rfl⟩) ?_ ?_ ?_ hpre hout'⟩
    · rw [List.append_nil, List.append_nil]
    · rw [List.append_nil]
      exact hp.inbound_le
    · rw [List.append_nil]
      exact hin'
  cases UdpClient.turn_of_step hp.wf hu with
  | opened hm =>
    obtain ⟨rfl, rfl⟩ := hout fun _ _ h => by cases h
    obtain rfl := hin fun _ h => by cases h
    obtain rfl : opened = false := by simpa [hp.wf hm] using hp.opened_iff
    obtain ⟨-, hnil⟩ := hp.closed rfl
    have hx : Does _ _ [] [] := does_session c.token [.opened, .setServerQueue UdpClient.connectionToken, .sent (continueReply u.token)]
      rfl does_nil
    refine ⟨true, fun _ => rfl, hp.next hx hagent htok (by simp) (by simp) (fun _ => rfl) (fun h => by cases h) ?_ ?_ (fun _ => ?_) ?_
      fun _ => ?_⟩
    · rw [hnil, hp.token]
      rfl
    · rw [List.append_nil]
      exact hp.inbound_le
    · rw [List.append_nil]
      exact hp.inbound (by simp [hm])
    · rw [List.append_nil]
      exact hp.outbound_le
    · rw [List.append_nil]
      exact hp.outbound (by simp [hp.wf hm])
  | openFailed hm =>
    obtain ⟨rfl, rfl⟩ := hout fun _ _ h => by cases h
    refine hquiet rfl does_nil (by simp) ?_ (fun _ => rfl) (fun h => absurd rfl h) ?_ fun _ => ?_
    · rw [hp.opened_iff]
    · rw [List.append_nil]
      exact hp.outbound_le
    · rw [List.append_nil]
      exact hp.outbound (by simp [hp.wf hm])
  | sends p hm =>
    obtain ⟨rfl, rfl⟩ := hout fun _ _ h => by cases h
    obtain ⟨d, hd, hq⟩ := hiq.resolve_right fun h => h.1 _ rfl
    cases hd
    have harrived := hp.inbound (by simp [hm])
    rw [hq] at harrived
    have hx : Does _ _ [p] [] := does_session c.token [.sent (.SDSRV (p.message u.token))] rfl does_nil
    obtain rfl := hopened (by simp [hm]) (by simp [hm])
    refine ⟨true, id, hp.next hx hagent htok (by simp) hp.opened_iff id (fun h => by cases h) ?_ ?_ (fun _ => ?_) ?_ fun hw => ?_⟩
    · rw [hp.token]
      simp [Relay.said, messages]
    · rw [harrived]
      exact ⟨packets iq, by simp [packets, Datagram.packet?]⟩
    · rw [harrived]
      simp [packets, Datagram.packet?]
    · rw [List.append_nil]
      exact hp.outbound_le
    · rw [List.append_nil]
      exact hp.outbound hw
  | skips exc hm hm' hw =>
    obtain ⟨rfl, rfl⟩ := hout fun _ _ h => by cases h
    obtain ⟨d, hd, hq⟩ := hiq.resolve_right fun h => h.1 _ rfl
    cases hd
    have harrived := hp.inbound (by simp [hm])
    rw [hq] at harrived
    obtain rfl := hopened (by simp [hm]) (by simp [hm])
    refine hquiet rfl does_nil hm' (by rw [hw]; exact hp.opened_iff) (fun h => by cases h) (fun _ => harrived) ?_ fun h => ?_
    · rw [List.append_nil]
      exact hp.outbound_le
    · rw [List.append_nil]
      exact hp.outbound (hw ▸ h)
  | hands data hd hw hw' hm =>
    obtain ⟨m, raises, heq, hq, rfl⟩ := hwq.resolve_right fun h => h.1 _ _ rfl
    cases heq
    obtain rfl := hin fun _ h => by cases h
    have hopen : opened = true := hp.opened_iff.2 (by simp [hw])
    have hreceived := hp.outbound (by simp [hw])
    rw [hq, List.map_cons] at hreceived
    have hx : Does (if m.data = [] ∨ false = true then [] else [.sendto m.packet]) [] [] [m.packet] := by
      rw [if_neg (by simp [hd])]
      exact does_sendto m.packet
    have hmain : u.main ≠ .opening := fun h => by
      rw [hp.wf h] at hw
      cases hw
    refine hquiet rfl hx (hm ▸ hmain) (by simp [hopen, hw']) (by simp [hopen])
      (fun h => hp.inbound (hm ▸ h)) ?_ fun _ => ?_
    · rw [hreceived]
      exact ⟨wq.map (·.packet), by simp⟩
    · rw [hreceived]
      simp
  | stops data raises h hw hw' hm =>
    obtain ⟨m, raises', heq, hq, rfl⟩ := hwq.resolve_right fun h => h.1 _ _ rfl
    cases heq
    obtain rfl := hin fun _ h => by cases h
    have hopen : opened = true := hp.opened_iff.2 (by simp [hw])
    have hx : Does (if m.data = [] ∨ raises = true then [] else [.sendto m.packet]) [] [] [] := by
      rw [if_pos h]
      exact does_nil
    have hmain : u.main ≠ .opening := fun h => by
      rw [hp.wf h] at hw
      cases hw
    refine hquiet rfl hx (hm ▸ hmain) (by simp [hopen, hw']) (by simp [hopen]) (fun h => hp.inbound (hm ▸ h)) ?_
      fun h => absurd hw' h
    rw [List.append_nil]
    exact hp.outbound_le
  | other hr hg hm hm' hdone hwdone hnone =>
    obtain ⟨rfl, rfl⟩ := hout hg
    obtain rfl := hin hr
    refine hquiet rfl does_nil hm' (by rw [hp.opened_iff, ne_eq, ne_eq, hnone]) (fun h => ?_)
      (fun h => hp.inbound (mt hdone h)) ?_ fun h => ?_
    · exact hdone ((hp.closed h).1.resolve_left hm)
    · rw [List.append_nil]
      exact hp.outbound_le
    · rw [List.append_nil]
      exact hp.outbound (mt hwdone h)

theorem Relays.arrives (hp : Relays full info c u opened es s os) (d : Datagram) :
    Relays full info c u opened (es ++ [.arrives d]) { s with in_queue := s.in_queue ++ [d] } os where
  agent := hp.agent
  token := hp.token
  wf := hp.wf
  opened_iff := hp.opened_iff
  closed := hp.closed
  said := hp.said
  inbound_le := by
    rw [arrived_append]
    exact hp.inbound_le.trans (List.prefix_append ..)
  inbound h := by
    rw [arrived_append, hp.inbound h, packets, packets, List.filterMap_append, List.append_assoc]
    rfl
  outbound_le := hp.outbound_le
  outbound := hp.outbound

theorem Relays.recv (hp : Relays full info c u true es s os) {data : Bytes} {f : FileOs} {cmd : CMD} {l : Link}
    (hc : CMD.fromBytes data = .ok cmd) (hcmd : FromOperator c.token cmd)
    (hs : s.link.step (.recv data f) = some (l, oa)) :
    Relays full info c u true es { s with link := l, writer_queue := s.writer_queue ++ queued s.link.agent data }
      (os ++ oa.map .agent) := by
  obtain ⟨hstep, -⟩ := Link.step_eq_some hs
  rw [hp.agent, step_fromOperator hc hcmd] at hstep
  obtain ⟨hagent, rfl⟩ := Prod.mk.inj (Option.some.inj hstep)
  have hqueued : (queued s.link.agent data).map (·.packet) =
      Relay.received ([.received cmd, .returned true].map Output.agent) := by
    cases cmd with
    | SDSRV m =>
      obtain ⟨htok, hct⟩ := hcmd
      simp [queued, hc, hp.agent, relaying, Agent.init, Dict.contains, htok, hct, Relay.received, Output.received?]
    | OK m => simp [queued, hc, Relay.received, Output.received?]
    | _ => exact hcmd.elim
  refine ⟨hagent.symm, hp.token, hp.wf, hp.opened_iff, fun h => (by cases h), ?_, ?_, fun h => ?_, ?_, fun h => ?_⟩
  · rw [agentOutputs_append, agentOutputs_agent, Agent.sentMessages_append, relayed_append]
    exact (List.append_nil _).trans (hp.said.trans (congrArg _ (List.append_nil _).symm))
  · rw [relayed_append]
    exact (List.append_nil (Relay.relayed os)).symm ▸ hp.inbound_le
  · rw [relayed_append]
    exact (List.append_nil (Relay.relayed os)).symm ▸ hp.inbound h
  · rw [handed_append, handed_agent, List.append_nil, received_append]
    exact hp.outbound_le.trans (List.prefix_append ..)
  · rw [handed_append, handed_agent, List.append_nil, received_append, hp.outbound h, List.map_append, hqueued,
      List.append_assoc]

theorem arrived_agent (e : Agent.Event) : arrived (es ++ [.agent e]) = arrived es := by
  rw [arrived_append]
  exact List.append_nil _

theorem Relays.of_arrived (hp : Relays full info c u opened es s os) (h : arrived es' = arrived es) :
    Relays full info c u opened es' s os :=
  ⟨hp.agent, hp.token, hp.wf, hp.opened_iff, hp.closed, hp.said, h ▸ hp.inbound_le, h ▸ hp.inbound,
    hp.outbound_le, hp.outbound⟩

theorem Relays.of_link (hp : Relays full info c u opened es s os) {l : Link} (h : l.agent = s.link.agent) :
    Relays full info c u opened es { s with link := l } os :=
  ⟨h.trans hp.agent, hp.token, hp.wf, hp.opened_iff, hp.closed, hp.said, hp.inbound_le, hp.inbound,
    hp.outbound_le, hp.outbound⟩

/-- The step lemma: frames of the operator come once the socket is open. -/
theorem Relays.step (hp : Relays full info c u opened es s os)
    (hop : ∀ data f, e = .agent (.recv data f) → opened = true ∧
      ∃ cmd, CMD.fromBytes data = .ok cmd ∧ FromOperator c.token cmd)
    (hs : s.step e = some (s', o)) : ∃ u' opened', (opened = true → opened' = true) ∧
      Relays full info c u' opened' (es ++ [e]) s' (os ++ o) := by
  have hagent : ∀ {e : Agent.Event} {u' : UdpClient} {s' : Relay} {o : List Output},
      (∃ opened', (opened = true → opened' = true) ∧ Relays full info c u' opened' es s' (os ++ o)) →
      ∃ u' opened', (opened = true → opened' = true) ∧
        Relays full info c u' opened' (es ++ [.agent e]) s' (os ++ o) := by
    rintro e u' s' o ⟨opened', hle, hp'⟩
    exact ⟨u', opened', hle, hp'.of_arrived (arrived_agent e)⟩
  cases moves_of_step hs with
  | arrives d =>
    rw [List.append_nil]
    exact ⟨u, opened, id, hp.arrives d⟩
  | @recv data f l oa hstep =>
    obtain ⟨rfl, cmd, hc, hcmd⟩ := hop data f rfl
    exact hagent ⟨true, id, hp.recv hc hcmd hstep⟩
  | @received i d rest l oa hq hstep =>
    obtain ⟨ha, -⟩ := Link.step_eq_some hstep
    rw [hp.agent] at ha
    obtain ⟨_, _, ue, u', ou, heq, hu, he, hl⟩ := Relay.step_session (fun _ _ h => by cases h) ha
    cases heq
    rcases he with he | ⟨-, _, he⟩
    · cases he
      have hnext := hp.step_session [] hu hl (.inl ⟨d, rfl, hq⟩) (.inr ⟨fun _ _ h => (by cases h), rfl, rfl⟩)
      rw [List.append_nil] at hnext
      exact hagent hnext
    · cases he
  | @got i raises m rest l oa hq hstep =>
    obtain ⟨ha, -⟩ := Link.step_eq_some hstep
    rw [hp.agent] at ha
    obtain ⟨_, _, ue, u', ou, heq, hu, he, hl⟩ := Relay.step_session (fun _ _ h => by cases h) ha
    cases heq
    rcases he with he | ⟨-, _, he⟩
    · cases he
      exact hagent (hp.step_session _ hu hl (.inr ⟨fun _ h => (by cases h), rfl⟩) (.inl ⟨m, raises, rfl, hq, rfl⟩))
    · cases he
  | @agent e l oa hr hd hg hstep =>
    obtain ⟨ha, -⟩ := Link.step_eq_some hstep
    rw [hp.agent] at ha
    obtain ⟨i, _, ue, u', ou, rfl, hu, he, hl⟩ := Relay.step_session hr ha
    have hne : (∀ d, ue ≠ .received d) ∧ ∀ data raises, ue ≠ .writerGot data raises := by
      rcases he with rfl | ⟨hue, -⟩
      · exact ⟨fun d h => hd i d (by rw [h]), fun data raises h => hg i data raises (by rw [h])⟩
      · rcases hue with rfl | rfl <;> exact ⟨nofun, nofun⟩
    have hnext := hp.step_session [] hu hl (.inr ⟨hne.1, rfl⟩) (.inr ⟨hne.2, rfl, rfl⟩)
    rw [List.append_nil] at hnext
    exact hagent hnext

/-- What a step puts on the wire. -/
theorem down_of_step (hs : s.step e = some (s', o)) :
    s'.link.down = s.link.down ++ frames (Agent.sentMessages (agentOutputs o)) := by
  cases moves_of_step hs with
  | arrives d => exact (List.append_nil _).symm
  | recv hstep | received hq hstep | agent hr hd hg hstep =>
    rw [agentOutputs_agent]
    exact (Link.step_eq_some hstep).2.1
  | got hq hstep =>
    have hnone : ∀ (b : Prop) [Decidable b] (p : Packet), agentOutputs (if b then [] else [.sendto p]) = [] := by
      intro b hb p
      split <;> rfl
    rw [agentOutputs_append, agentOutputs_agent, hnone, List.append_nil]
    exact (Link.step_eq_some hstep).2.1

/-- A frame that comes to the agent was the first on its way. -/
theorem up_of_recv {data : Bytes} {f : FileOs} (hs : s.step (.agent (.recv data f)) = some (s', o)) :
    s.link.up = data :: s'.link.up := by
  cases moves_of_step hs with
  | recv hstep =>
    obtain ⟨-, -, ⟨_, _, heq, hup⟩ | ⟨hne, -⟩⟩ := Link.step_eq_some hstep
    · cases heq
      exact hup
    · exact absurd rfl (hne data f)
  | agent hr => exact absurd rfl (hr data f)

/-- What a step takes from the wire, it receives; no other step receives. -/
theorem Relays.received_of_step (hp : Relays full info c u opened es s os)
    (hop : ∀ data f, e = .agent (.recv data f) → opened = true ∧
      ∃ cmd, CMD.fromBytes data = .ok cmd ∧ FromOperator c.token cmd)
    (hs : s.step e = some (s', o)) :
    (∃ data cmd, s.link.up = data :: s'.link.up ∧ CMD.fromBytes data = .ok cmd ∧
        o = [.agent (.received cmd), .agent (.returned true)]) ∨
      s'.link.up = s.link.up ∧ Relay.received o = [] := by
  have hsession : ∀ {e : Agent.Event} {l : Link} {oa : List Agent.Output}, (∀ data f, e ≠ .recv data f) →
      s.link.step e = some (l, oa) → l.up = s.link.up ∧ Relay.received (oa.map .agent) = [] := by
    intro e l oa hr hstep
    obtain ⟨ha, -, ⟨data, f, rfl, -⟩ | ⟨-, hup⟩⟩ := Link.step_eq_some hstep
    · exact absurd rfl (hr data f)
    · rw [hp.agent] at ha
      obtain ⟨_, _, ue, u', ou, rfl, hu, he, hl⟩ := Relay.step_session hr ha
      obtain ⟨-, rfl⟩ := Prod.mk.inj hl
      have hdoes := does_session c.token ou rfl does_nil
      rw [List.append_nil] at hdoes
      exact ⟨hup, hdoes.received⟩
  cases moves_of_step hs with
  | arrives d => exact .inr ⟨rfl, rfl⟩
  | @recv data f l oa hstep =>
    obtain ⟨rfl, cmd, hc, hcmd⟩ := hop data f rfl
    obtain ⟨ha, -, ⟨_, _, heq, hup⟩ | ⟨hne, -⟩⟩ := Link.step_eq_some hstep
    · cases heq
      rw [hp.agent, step_fromOperator hc hcmd] at ha
      obtain ⟨-, rfl⟩ := Prod.mk.inj (Option.some.inj ha)
      exact .inl ⟨data, cmd, hup, hc, rfl⟩
    · exact absurd rfl (hne data f)
  | received hq hstep => exact .inr (hsession (fun _ _ h => by cases h) hstep)
  | got hq hstep =>
    obtain ⟨hup, hnone⟩ := hsession (fun _ _ h => by cases h) hstep
    refine .inr ⟨hup, ?_⟩
    rw [received_append, hnone]
    split <;> rfl
  | agent hr hd hg hstep => exact .inr (hsession hr hstep)

/-- The CONNECT of a UDP client makes its session. -/
theorem step_of_init (hagent : s.link.agent = Agent.init full info) {cmd : WSNConnect} (ht : cmd.token.length = 16)
    (hprot : cmd.protocol = "UDP") (hbind : cmd.bind = false)
    (hup : ∀ b ∈ s.link.up, s.link.up = [b] ∧ (CMD.CONNECT cmd).toBytes = .ok b) (hs : s.step e = some (s', o)) :
    s.link.up ≠ [] ∧ s'.link.up = [] ∧ s'.link.down = s.link.down ∧ s'.in_queue = s.in_queue ∧ s'.writer_queue = s.writer_queue ∧
      arrived [e] = [] ∧ Relay.relayed o = [] ∧ Relay.received o = [] ∧ Relay.handed o = [] ∧
      Agent.sentMessages (agentOutputs o) = [] ∧
      (s'.link.agent = Agent.init full info ∨ ∃ c : WSNConnect, c.token = cmd.token ∧
        s'.link.agent = relaying full info c { token := c.token } false) := by
  have hdown := down_of_step hs
  have hother : ∀ {e : Agent.Event} {l : Link} {oa : List Agent.Output}, (∀ data f, e ≠ .recv data f) →
      s.link.step e ≠ some (l, oa) := by
    intro e l oa hr hstep
    have ha := (Link.step_eq_some hstep).1
    rw [hagent] at ha
    cases e with
    | recv data f => exact hr data f rfl
    | conn j e => cases e <;> simp [Agent.step, Agent.init] at ha
    | _ => simp [Agent.step, Agent.init, Agent.stepIncoming] at ha
  cases moves_of_step hs with
  | arrives d hne => exact absurd (by rw [hagent]; rfl) hne
  | received hq hstep => exact absurd hstep (hother fun _ _ h => by cases h)
  | got hq hstep => exact absurd hstep (hother fun _ _ h => by cases h)
  | agent hr hd hg hstep => exact absurd hstep (hother hr)
  | @recv data f l oa hstep =>
    obtain ⟨ha, -, ⟨_, _, heq, hq⟩ | ⟨hne, -⟩⟩ := Link.step_eq_some hstep
    · cases heq
      obtain ⟨hone, hb⟩ := hup data (by rw [hq]; exact List.mem_cons_self)
      obtain ⟨-, hnil⟩ := List.cons.inj (hq.symm.trans hone)
      have hqueued : queued s.link.agent data = [] := by
        unfold queued
        split
        · rename_i m hm
          cases CMD.type_of_fromBytes hb hm
        · rfl
      rw [hagent] at ha
      simp only [Agent.step, Agent.init, if_true] at ha
      split at ha
      · rename_i m hm
        obtain ⟨c, rfl, htok, hprot', hbind'⟩ :=
          CMD.fromBytes_of_toBytes_CONNECT hb ht (by rw [hprot]; decide) hm
        have hcreate : Session.create full c = ⟨c, .udpClient { token := c.token }⟩ := by
          simp [Session.create, WSNConnect.kind, hbind', hbind, hprot', hprot]
        obtain ⟨hagent', rfl⟩ := Prod.mk.inj (Option.some.inj ha)
        refine ⟨by simp [hq], hnil, hdown.trans (List.append_nil _), rfl, by rw [hqueued, List.append_nil], rfl, rfl, rfl,
          rfl, rfl, .inr ⟨c, htok, ?_⟩⟩
        rw [← hagent', relaying, ← hcreate]
        rfl
      · obtain ⟨hagent', rfl⟩ := Prod.mk.inj (Option.some.inj ha)
        exact ⟨by simp [hq], hnil, hdown.trans (List.append_nil _), rfl, by rw [hqueued, List.append_nil], rfl, rfl, rfl,
          rfl, rfl, .inl hagent'.symm⟩
    · exact absurd rfl (hne data f)

end Relays

end Relay

end Wsnet
