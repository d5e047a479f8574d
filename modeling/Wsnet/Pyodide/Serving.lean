import Wsnet.Agent.Hosting
import Wsnet.Pyodide.Handlers

/-!
# A TCP server and its peers

A client with a TCP server, the agent that listens for it, and the peers that connect. Between the two are the
websocket and `internal_in_q`, which keep the order; a peer is a stream of bytes that ends when it closes.
`Between` is what holds between two steps: the frames that the agent has sent are those that the client has taken
and those on their way, and an agent that has read from a peer has read the first of what the peer sent.
-/

namespace Wsnet.Pyodide

/-- The other end of a connection that the agent has accepted. -/
structure Peer where
  /-- what it has sent and the agent has not read -/
  unread : Bytes := []
  closed : Bool := false

namespace Peer

inductive Event
  | send (data : Bytes)
  | close
  deriving DecidableEq, Repr

def step (p : Peer) : Event → Option Peer
  | .send data => if p.closed then none else some { p with unread := p.unread ++ data }
  | .close => some { p with closed := true }

/-- `reader.read(65536)` of the agent returns `data`. -/
def read (p : Peer) (data : Bytes) : Option Peer :=
  if data = [] then
    if p.closed ∧ p.unread = [] then some p else none
  else if p.unread.take data.length = data ∧ data.length ≤ 65536 then
    some { p with unread := p.unread.drop data.length }
  else none

/-- The peer has sent `sent`, of which the agent has read `rs`. -/
structure Feeds (p : Peer) (sent : Bytes) (rs : List Bytes) : Prop where
  bytes : sent = rs.flatten ++ p.unread
  ended : [] ∈ rs → p.closed = true ∧ p.unread = []

variable {p p' : Peer} {sent data : Bytes} {rs : List Bytes} {e : Event}

/-- The bytes that an event sends. -/
def Event.bytes : Event → Bytes
  | .send data => data
  | .close => []

theorem Feeds.step (h : Feeds p sent rs) (hs : p.step e = some p') : Feeds p' (sent ++ e.bytes) rs := by
  cases e with
  | send data =>
    simp only [Peer.step] at hs
    split_ifs at hs with hc
    cases hs
    refine ⟨?_, fun hmem => absurd (h.ended hmem).1 hc⟩
    rw [h.bytes, List.append_assoc]
    rfl
  | close =>
    cases hs
    exact ⟨h.bytes.symm ▸ List.append_nil _, fun hmem => ⟨rfl, (h.ended hmem).2⟩⟩

theorem Feeds.read (h : Feeds p sent rs) (hs : p.read data = some p') : Feeds p' sent (rs ++ [data]) := by
  unfold Peer.read at hs
  split_ifs at hs with hnil hc hd
  · cases hs
    subst hnil
    refine ⟨?_, fun _ => hc⟩
    rw [h.bytes, List.flatten_append, List.flatten_singleton, List.append_nil]
  · cases hs
    refine ⟨?_, fun hmem => ?_⟩
    · rw [h.bytes, List.flatten_append, List.flatten_singleton, List.append_assoc]
      conv_lhs => rw [← List.take_append_drop data.length p.unread, hd.1]
    · rcases List.mem_append.1 hmem with hmem | hmem
      · have hunread := (h.ended hmem).2
        rw [hunread, List.take_nil] at hd
        exact absurd hd.1.symm hnil
      · exact absurd (List.mem_singleton.1 hmem).symm hnil

end Peer

/-- A `WSNetworkTCPServer`, the agent with its server, the websocket between them, and the peers that connect. -/
structure Serving where
  client : WSNetworkTCPServer
  link : Link
  /-- of each connection of the agent -/
  peers : List Peer := []

namespace Serving

inductive Event
  | client (e : WSNetworkTCPServer.Event)
  | agent (e : Agent.Event)
  | peer (j : Nat) (e : Peer.Event)

inductive Output
  | client (o : WSNetworkTCPServer.Output)
  | agent (o : Agent.Output)

/-- The client has sent its CONNECT. -/
def start (full : Bool) (info : WSNGetInfoReply) (client : WSNetworkTCPServer) : Serving where
  client := client
  link := { agent := Agent.init full info, up := trySend client.connectCmd }

/-- The client has become `r.1` and done `r.2`. -/
def putClient (s : Serving) (r : WSNetworkTCPServer × List WSNetworkTCPServer.Output) : Serving × List Output :=
  ({ s with client := r.1, link := { s.link with up := s.link.up ++ WSNetworkTCPServer.sent r.2 } }, r.2.map .client)

/-- The agent and its websocket have become `r.1` and done `r.2`. -/
def putLink (s : Serving) (r : Link × List Agent.Output) : Serving × List Output :=
  ({ s with link := r.1 }, r.2.map .agent)

/-- What is on its way to the client is on the websocket or in `internal_in_q`, both in order. -/
def step (s : Serving) : Event → Option (Serving × List Output)
  | .client (.message data) =>
    match s.link.down with
    | b :: down =>
      if data = b then
        (s.client.step (.message data)).map ({ s with link := { s.link with down } } : Serving).putClient
      else none
    | [] => none
  | .client e => (s.client.step e).map s.putClient
  | .agent (.accept i peername) =>
    (s.link.step (.accept i peername)).map ({ s with peers := s.peers ++ [({} : Peer)] } : Serving).putLink
  | .agent (.conn j (.read data)) =>
    match s.peers[j]?.bind (·.read data) with
    | some p => (s.link.step (.conn j (.read data))).map ({ s with peers := s.peers.set j p } : Serving).putLink
    | none => none
  | .agent e => (s.link.step e).map s.putLink
  | .peer j e => (s.peers[j]?.bind (·.step e)).map fun p => ({ s with peers := s.peers.set j p }, [])

/-! ### What is seen of a run -/

def clientEvents (es : List Event) : List WSNetworkTCPServer.Event :=
  es.filterMap fun
    | .client e => some e
    | _ => none

def clientOutputs (os : List Output) : List WSNetworkTCPServer.Output :=
  os.filterMap fun
    | .client o => some o
    | _ => none

def agentOutputs (os : List Output) : List Agent.Output :=
  os.filterMap fun
    | .agent o => some o
    | _ => none

/-- The bytes that the peer of the connection `j` has sent. -/
def peerSent (j : Nat) (es : List Event) : Bytes :=
  (es.map fun
    | .peer i e => if i = j then e.bytes else []
    | _ => []).flatten

/-- The websocket stays open, nobody shuts the server down, no send and no read of a socket fails, the address of
a peer is a pair that fits into a frame, and a handler calls nothing but `read`. -/
def Event.Reliable : Event → Prop
  | .client e => e.OnlyReads
  | .agent e => e.Reliable
  | .peer _ _ => True

end Serving

/-! ### The frames -/

/-- The frame is the message, whose client address may be spelt otherwise. -/
def Arrives (b : Bytes) (m : WSNServerSocketData) : Prop :=
  ∃ clientip, CMD.fromBytes b = .ok (.SDSRV { m with clientip })

theorem arrives {m : WSNServerSocketData} (ht : m.token.length = 16) (hct : m.connectiontoken.length = 16)
    (hfit : m.Fits) : ∃ b, Wsnet.frames [.SDSRV m] = [b] ∧ Arrives b m := by
  have hcarries : Carries (fun data => .SDSRV { m with data }) (40 + addressSize m.clientip) :=
    carries_SDSRV ht hct hfit.2
  obtain ⟨b, hb⟩ := hcarries.written m.data hfit.1
  refine ⟨b, ?_, CMD.fromBytes_of_toBytes_SDSRV (c := m) hb ht hct⟩
  simp only [Wsnet.frames, List.filterMap_cons, List.filterMap_nil]
  rw [show (CMD.SDSRV m).toBytes = .ok b from hb]
  rfl

theorem arrives_frames {ms : List WSNServerSocketData}
    (h : ∀ m ∈ ms, m.token.length = 16 ∧ m.connectiontoken.length = 16 ∧ m.Fits) :
    List.Forall₂ Arrives (Wsnet.frames (ms.map .SDSRV)) ms := by
  induction ms with
  | nil => exact .nil
  | cons m ms ih =>
    obtain ⟨ht, hct, hfit⟩ := h m List.mem_cons_self
    obtain ⟨b, hb, harr⟩ := arrives ht hct hfit
    rw [List.map_cons, frames_cons, hb]
    exact .cons harr (ih fun m hm => h m (List.mem_cons_of_mem _ hm))

open Agent (connMessages sentBy readBy)

theorem supported_CONTINUE {token : Bytes} (ht : token.length = 16) : (continueReply token).Supported where
  type := by simp [continueReply, CMD.type, CMD.lossy]
  token := ht
  text := Option.some_ne_none _
  width f hf := by
    rw [continueReply, CMD.fields, MsgCmd.fields] at hf
    simp only [List.mem_cons, List.not_mem_nil, or_false] at hf
    rcases hf with hf | hf
    · rw [hf]
      exact rfl
    · rw [hf, Field.InWidth]
      trivial

theorem continueReply_frame {token : Bytes} (ht : token.length = 16) :
    ∃ b c, Wsnet.frames [continueReply token] = [b] ∧ CMD.fromBytes b = .ok (.CONTINUE c) := by
  have hsize : (continueReply token).frameLength = 26 := by
    simp only [continueReply, CMD.frameLength, CMD.fields, MsgCmd.fields, List.map_cons, List.map_nil, Field.size,
      encode, ht, utf8Encode_empty, List.length_nil, List.sum_cons, List.sum_nil]
    norm_num
  obtain ⟨b, hb, hread, -⟩ := CMD.fromBytes_toBytes (supported_CONTINUE ht) (by rw [hsize]; norm_num)
  refine ⟨b, _, ?_, hread⟩
  simp [Wsnet.frames, hb, Except.toOption]

/-- The frames that the agent sends: none, an answer that refuses, or the CONTINUE and then those of connections. -/
inductive Wire (a : Agent) (ms : List WSNServerSocketData) (fs : List Bytes) : Prop
  | nothing (hfs : fs = []) (h : a.conns = [])
  | refused {b : Bytes} (hfs : fs = [b]) (hb : ∀ c, CMD.fromBytes b ≠ .ok (.CONTINUE c)) (h : a.conns = [])
  | bound {b : Bytes} {c : WSNContinue} {bs : List Bytes} (hfs : fs = b :: bs)
    (hb : CMD.fromBytes b = .ok (.CONTINUE c)) (hbs : List.Forall₂ Arrives bs ms)

theorem forall₂_append_left {α β : Type} {R : α → β → Prop} {l₁ l₂ : List α} {ms : List β}
    (h : List.Forall₂ R (l₁ ++ l₂) ms) :
    ∃ ms₁ ms₂, ms = ms₁ ++ ms₂ ∧ List.Forall₂ R l₁ ms₁ ∧ List.Forall₂ R l₂ ms₂ := by
  refine ⟨ms.take l₁.length, ms.drop l₁.length, (List.take_append_drop ..).symm, ?_, ?_⟩
  · simpa using List.forall₂_take l₁.length h
  · simpa using List.forall₂_drop l₁.length h

/-- The frame that the client takes behind the first is a message of a connection. -/
theorem Wire.sdsrv {a : Agent} {ms : List WSNServerSocketData} {fs bs down : List Bytes} {data : Bytes}
    (h : Wire a ms fs) (hne : bs ≠ []) (hfs : fs = bs ++ data :: down) :
    ∃ cmd, CMD.fromBytes data = .ok (.SDSRV cmd) := by
  obtain ⟨b, bs, rfl⟩ := List.exists_cons_of_ne_nil hne
  cases h with
  | nothing hnil =>
    rw [hnil] at hfs
    cases hfs
  | refused hone =>
    rw [hone] at hfs
    have := congrArg List.length hfs
    simp at this
  | bound hall _ hbs =>
    obtain ⟨-, rfl⟩ := List.cons.inj (hall.symm.trans hfs)
    obtain ⟨-, ms, -, -, hdown⟩ := forall₂_append_left hbs
    cases hdown with
    | cons hm => exact ⟨_, hm.choose_spec⟩

section Wire
variable {full : Bool} {info : WSNGetInfoReply} {cmd : WSNConnect} {l : Link} {os : List Agent.Output}

theorem wire_of_hosts (hp : Agent.Hosts full info cmd l os) (ht : cmd.token.length = 16) (hc : Agent.Conns l.agent)
    (hid : l.agent.connId ≤ 10 ^ 16) :
    Wire l.agent (connMessages os) (Wsnet.frames (Agent.sentMessages os)) := by
  cases hp with
  | fresh ha hup hsent hos => exact .nothing (by rw [hsent]; rfl) (by rw [ha]; rfl)
  | @hosting cs h hnil =>
    obtain ⟨cmd', ts, hss, htok, hcan, hsaid, hlisten⟩ := h.session
    have hnone (hl : ts.listening = false) : l.agent.conns = [] := by
      by_contra hne
      rw [hlisten hne] at hl
      cases hl
    rw [h.said]
    cases hsaid with
    | nothing _ hl => exact .nothing (by rw [h.connMessages_eq_nil (hnone hl)]; rfl) (hnone hl)
    | @refused reason exc _ hl =>
      rw [h.connMessages_eq_nil (hnone hl), List.map_nil, List.append_nil]
      cases hb : (errReply ts.full ts.token reason exc).toBytes with
      | error e => exact .nothing (by simp [Wsnet.frames, hb, Except.toOption]) (hnone hl)
      | ok b =>
        refine .refused (b := b) (by simp [Wsnet.frames, hb, Except.toOption]) (fun c hc => ?_) (hnone hl)
        have := CMD.type_of_fromBytes hb hc
        cases this
    | bound hm hl =>
      obtain ⟨b, c, hb, hread⟩ := continueReply_frame (htok ▸ ht)
      refine .bound (by rw [frames_append, hb]; rfl) hread (arrives_frames fun m hm => ?_)
      obtain ⟨j, hj⟩ := Agent.mem_connMessages.1 hm
      cases hc' : l.agent.conns[j]? with
      | none =>
        rw [(h.unused j hc').1] at hj
        cases hj
      | some d =>
        have hserves := h.serves j d hc'
        obtain ⟨htok', hct, hfit⟩ := hserves.messages m hj
        obtain ⟨n, hn, hid'⟩ := hc.fresh hc' fun hrun => by
          rw [List.map_eq_nil_iff.1 (hserves.line.nil_of_accepted hrun)] at hj
          cases hj
        exact ⟨htok'.symm ▸ ht, by rw [hct, hid', Agent.length_connectionId (by omega)], hfit⟩

end Wire

/-! ### What holds between two steps -/

namespace Serving
open WSNetworkTCPServer (received sent)

/-- What a step does to the client, the link and the peers. -/
inductive Moves (s : Serving) : Event → Serving → List Output → Prop
  | client {e : WSNetworkTCPServer.Event} {c : WSNetworkTCPServer} {o : List WSNetworkTCPServer.Output}
    {down : List Bytes} (hs : s.client.step e = some (c, o))
    (hd : s.link.down = received [e] ++ down) :
    Moves s (.client e) { s with client := c, link := ⟨s.link.agent, s.link.up ++ sent o, down⟩ } (o.map .client)
  | accept {i : Nat} {peername : Peername} {l : Link} {o : List Agent.Output}
    (hs : s.link.step (.accept i peername) = some (l, o)) :
    Moves s (.agent (.accept i peername)) { s with link := l, peers := s.peers ++ [{}] } (o.map .agent)
  | read {j : Nat} {data : Bytes} {p p' : Peer} {l : Link} {o : List Agent.Output} (hj : s.peers[j]? = some p)
    (hp : p.read data = some p') (hs : s.link.step (.conn j (.read data)) = some (l, o)) :
    Moves s (.agent (.conn j (.read data))) { s with link := l, peers := s.peers.set j p' } (o.map .agent)
  | agent {e : Agent.Event} {l : Link} {o : List Agent.Output} (hs : s.link.step e = some (l, o))
    (ha : ∀ i peername, e ≠ .accept i peername) (hr : ∀ j, e.reads j = []) :
    Moves s (.agent e) { s with link := l } (o.map .agent)
  | peer {j : Nat} {e : Peer.Event} {p p' : Peer} (hj : s.peers[j]? = some p) (hs : p.step e = some p') :
    Moves s (.peer j e) { s with peers := s.peers.set j p' } []

variable {s s' : Serving} {e : Event} {o : List Output}

theorem moves_of_step (hs : s.step e = some (s', o)) : Moves s e s' o := by
  cases e with
  | client e =>
    cases e with
    | message data =>
      simp only [step] at hs
      split at hs
      · rename_i b down hdown
        split_ifs at hs with hb
        obtain ⟨⟨c, o'⟩, hstep, heq⟩ := Option.map_eq_some_iff.1 hs
        cases heq
        exact .client hstep (by rw [hdown, hb]; rfl)
      · cases hs
    | _ =>
      simp only [step] at hs
      obtain ⟨⟨c, o'⟩, hstep, heq⟩ := Option.map_eq_some_iff.1 hs
      cases heq
      exact .client hstep rfl
  | agent e =>
    cases e with
    | accept i peername =>
      simp only [step] at hs
      obtain ⟨⟨l, o'⟩, hstep, heq⟩ := Option.map_eq_some_iff.1 hs
      cases heq
      exact .accept hstep
    | conn j e =>
      cases e with
      | read data =>
        simp only [step] at hs
        split at hs
        · rename_i p' hp
          obtain ⟨p, hj, hread⟩ := Option.bind_eq_some_iff.1 hp
          obtain ⟨⟨l, o'⟩, hstep, heq⟩ := Option.map_eq_some_iff.1 hs
          cases heq
          exact .read hj hread hstep
        · cases hs
      | _ =>
        simp only [step] at hs
        obtain ⟨⟨l, o'⟩, hstep, heq⟩ := Option.map_eq_some_iff.1 hs
        cases heq
        exact .agent hstep (fun _ _ h => (by cases h)) fun _ => rfl
    | _ =>
      simp only [step] at hs
      obtain ⟨⟨l, o'⟩, hstep, heq⟩ := Option.map_eq_some_iff.1 hs
      cases heq
      exact .agent hstep (fun _ _ h => (by cases h)) fun _ => rfl
  | peer j e =>
    simp only [step] at hs
    obtain ⟨p', hp, heq⟩ := Option.map_eq_some_iff.1 hs
    obtain ⟨p, hj, hstep⟩ := Option.bind_eq_some_iff.1 hp
    cases heq
    exact .peer hj hstep

/-- The agent, the client and the peers between two steps of a run. -/
structure Between (full : Bool) (info : WSNGetInfoReply) (cmd : WSNConnect) (es : List Event) (s : Serving)
    (os : List Output) : Prop where
  hosts : Agent.Hosts full info cmd s.link (agentOutputs os)
  conns : Agent.ConnInv s.link.agent
  client : WSNetworkTCPServer.Phase (clientEvents es) (clientOutputs os) s.client
  fifo : Wsnet.frames (Agent.sentMessages (agentOutputs os)) = received (clientEvents es) ++ s.link.down
  peers : s.peers.length = s.link.agent.conns.length
  feeds : ∀ j : Nat, (s.peers[j]?.getD ({} : Peer)).Feeds (peerSent j es) (readBy j (agentOutputs os))

variable {full : Bool} {info : WSNGetInfoReply} {cmd : WSNConnect} {es es' : List Event} {os os' : List Output}

@[simp] theorem clientEvents_append : clientEvents (es ++ es') = clientEvents es ++ clientEvents es' :=
  List.filterMap_append

@[simp] theorem clientOutputs_append : clientOutputs (os ++ os') = clientOutputs os ++ clientOutputs os' :=
  List.filterMap_append

@[simp] theorem agentOutputs_append : agentOutputs (os ++ os') = agentOutputs os ++ agentOutputs os' :=
  List.filterMap_append

@[simp] theorem peerSent_append {j : Nat} : peerSent j (es ++ es') = peerSent j es ++ peerSent j es' := by
  rw [peerSent, List.map_append, List.flatten_append]
  rfl

theorem outputs_client (o : List WSNetworkTCPServer.Output) :
    clientOutputs (o.map .client) = o ∧ agentOutputs (o.map .client) = [] := by
  constructor
  · rw [clientOutputs, List.filterMap_map]
    exact List.filterMap_some
  · rw [agentOutputs, List.filterMap_map, List.filterMap_eq_nil_iff]
    exact fun x _ => rfl

theorem outputs_agent (o : List Agent.Output) :
    clientOutputs (o.map .agent) = [] ∧ agentOutputs (o.map .agent) = o := by
  constructor
  · rw [clientOutputs, List.filterMap_map, List.filterMap_eq_nil_iff]
    exact fun x _ => rfl
  · rw [agentOutputs, List.filterMap_map]
    exact List.filterMap_some

theorem getD_getElem?_snoc {α : Type} (l : List α) (x : α) (j : Nat) : (l ++ [x])[j]?.getD x = l[j]?.getD x := by
  rcases lt_trichotomy j l.length with hlt | rfl | hlt
  · rw [List.getElem?_append_left hlt]
  · simp
  · rw [List.getElem?_eq_none (by simp; omega), List.getElem?_eq_none hlt.le]

theorem Between.link {e : Agent.Event} {l : Link} {o : List Agent.Output} {peers : List Peer}
    (hp : Between full info cmd es s os) (ht : cmd.token.length = 16) (hprot : cmd.protocol = "TCP")
    (hbind : cmd.bind = true) (he : e.Reliable) (hs : s.link.step e = some (l, o))
    (hlen : peers.length = l.agent.conns.length)
    (hfeeds : ∀ j : Nat, (peers[j]?.getD ({} : Peer)).Feeds (peerSent j es) (readBy j (agentOutputs os ++ o))) :
    Between full info cmd (es ++ [.agent e]) { s with link := l, peers } (os ++ o.map .agent) := by
  obtain ⟨hclient, hagent⟩ := outputs_agent o
  obtain ⟨hstep, hdown, -⟩ := Link.step_eq_some hs
  have hev : clientEvents (es ++ [.agent e]) = clientEvents es := by rw [clientEvents_append]; exact List.append_nil _
  refine ⟨?_, hp.conns.step he.isSendFailed hstep, ?_, ?_, hlen, fun j => ?_⟩
  · rw [agentOutputs_append, hagent]
    exact hp.hosts.step ht hprot hbind he hs
  · rw [hev, clientOutputs_append, hclient, List.append_nil]
    exact hp.client
  · rw [hev, agentOutputs_append, hagent, Agent.sentMessages_append, frames_append, hp.fifo]
    dsimp only
    rw [hdown, List.append_assoc]
  · rw [peerSent_append, agentOutputs_append, hagent]
    exact (List.append_nil (peerSent j es)).symm ▸ hfeeds j

theorem Between.step (hp : Between full info cmd es s os) (ht : cmd.token.length = 16) (hprot : cmd.protocol = "TCP")
    (hbind : cmd.bind = true) (hid : s.link.agent.connId ≤ 10 ^ 16) (he : e.Reliable)
    (hs : s.step e = some (s', o)) : Between full info cmd (es ++ [e]) s' (os ++ o) := by
  cases moves_of_step hs with
  | @client e c o down hstep hd =>
    have hwire := wire_of_hosts hp.hosts ht hp.conns.conns hid
    obtain ⟨hphase, hsent⟩ := hp.client.step he (fun data hdata hne => by
      subst hdata
      exact hwire.sdsrv hne (hp.fifo.trans (by rw [hd]; rfl))) hstep
    obtain ⟨hclient, hagent⟩ := outputs_client o
    rw [hsent, List.append_nil]
    refine ⟨?_, hp.conns, ?_, ?_, hp.peers, fun j => ?_⟩
    · rw [agentOutputs_append, hagent, List.append_nil]
      exact hp.hosts.congr rfl rfl
    · rw [clientEvents_append, clientOutputs_append, hclient]
      exact hphase
    · rw [agentOutputs_append, hagent, List.append_nil, hp.fifo, hd, clientEvents_append,
        WSNetworkTCPServer.received_append, List.append_assoc]
      rfl
    · rw [peerSent_append, agentOutputs_append, hagent, List.append_nil]
      exact (List.append_nil (peerSent j es)).symm ▸ hp.feeds j
  | @accept i peername l o hstep =>
    obtain ⟨⟨-, hconns⟩, hread⟩ := hp.hosts.frame ht hprot hbind hstep
    rcases hconns with ⟨_, _, c, -, hconns⟩ | ⟨hne, -⟩
    · refine hp.link ht hprot hbind he hstep (by rw [hconns, List.length_append, List.length_append, hp.peers]; rfl)
        fun j => ?_
      rw [Agent.readBy_append, hread, show (Agent.Event.accept i peername).reads j = [] from rfl, List.append_nil,
        getD_getElem?_snoc]
      exact hp.feeds j
    · exact absurd rfl (hne i peername)
  | @read j data p p' l o hj hread hstep =>
    obtain ⟨⟨-, hconns⟩, hreads⟩ := hp.hosts.frame ht hprot hbind hstep
    have hlt : j < s.peers.length := (List.getElem?_eq_some_iff.1 hj).1
    rcases hconns with ⟨_, _, _, h, -⟩ | ⟨-, hlen⟩
    · cases h
    · refine hp.link ht hprot hbind he hstep (by rw [List.length_set, hp.peers, hlen]) fun i => ?_
      rw [Agent.readBy_append, hreads]
      have hfeeds := hp.feeds i
      by_cases hne : j = i
      · subst hne
        rw [hj] at hfeeds
        rw [List.getElem?_set_self hlt, show (Agent.Event.conn j (.read data)).reads j = [data] from if_pos rfl]
        exact hfeeds.read hread
      · rw [List.getElem?_set_ne hne, show (Agent.Event.conn j (.read data)).reads i = [] from if_neg hne,
          List.append_nil]
        exact hfeeds
  | @agent e l o hstep ha hr =>
    obtain ⟨⟨-, hconns⟩, hreads⟩ := hp.hosts.frame ht hprot hbind hstep
    rcases hconns with ⟨_, _, _, rfl, -⟩ | ⟨-, hlen⟩
    · exact absurd rfl (ha _ _)
    · refine hp.link ht hprot hbind he hstep (by rw [hp.peers, hlen]) fun i => ?_
      rw [Agent.readBy_append, hreads, hr, List.append_nil]
      exact hp.feeds i
  | @peer j e p p' hj hstep =>
    have hlt : j < s.peers.length := (List.getElem?_eq_some_iff.1 hj).1
    have hev : clientEvents (es ++ [.peer j e]) = clientEvents es := by
      rw [clientEvents_append]
      exact List.append_nil _
    rw [List.append_nil]
    refine ⟨hp.hosts, hp.conns, by rw [hev]; exact hp.client, by rw [hev]; exact hp.fifo,
      by rw [List.length_set]; exact hp.peers, fun i => ?_⟩
    have hfeeds := hp.feeds i
    rw [peerSent_append]
    by_cases hne : j = i
    · subst hne
      rw [hj] at hfeeds
      rw [List.getElem?_set_self hlt, show peerSent j [.peer j e] = e.bytes by simp [peerSent]]
      exact hfeeds.step hstep
    · rw [List.getElem?_set_ne hne, show peerSent i [.peer j e] = [] by simp [peerSent, hne], List.append_nil]
      exact hfeeds

theorem connId_le_of_step (hs : s.step e = some (s', o)) : s.link.agent.connId ≤ s'.link.agent.connId := by
  cases moves_of_step hs with
  | client | peer => exact le_rfl
  | accept hstep | read _ _ hstep | agent hstep => exact Agent.connId_le_of_step (Link.step_eq_some hstep).1

/-- The client of a TCP server before it has sent anything. -/
def newClient (token : Bytes) (ip : String) (port bindtype : Int) : WSNetworkTCPServer := { token, ip, port, bindtype }

/-- The command that it sends. -/
def newCmd (token : Bytes) (ip : String) (port bindtype : Int) : WSNConnect :=
  { token, protocol := "TCP", ip, port, bind := true, bindtype }

theorem between_start (full : Bool) (info : WSNGetInfoReply) (token : Bytes) (ip : String) (port bindtype : Int) :
    Between full info (newCmd token ip port bindtype) [] (start full info (newClient token ip port bindtype)) [] := by
  have hup : ∀ b ∈ trySend (newClient token ip port bindtype).connectCmd,
      trySend (newClient token ip port bindtype).connectCmd = [b] ∧
        (CMD.CONNECT (newCmd token ip port bindtype)).toBytes = .ok b := by
    intro b hb
    have hc := mem_trySend.1 hb
    exact ⟨trySend_eq hc, hc⟩
  refine ⟨.fresh rfl hup rfl fun j => ⟨rfl, rfl⟩, .init full info, .connecting rfl rfl ?_, rfl, rfl, fun j => ?_⟩
  · refine ⟨rfl, rfl, fun ct k => ?_, fun ct => ?_, fun k h hk => (by cases hk), fun k _ => ⟨rfl, rfl⟩⟩
    · simp [start, newClient]
    · simp [start, newClient, Dict.contains_eq_false_iff]
  · exact ⟨rfl, fun h => by cases h⟩

theorem between_of_run {token : Bytes} {ip : String} {port bindtype : Int} (ht : token.length = 16)
    (h : Run step (start full info (newClient token ip port bindtype)) es s os) (he : ∀ e ∈ es, e.Reliable)
    (hid : s.link.agent.connId ≤ 10 ^ 16) : Between full info (newCmd token ip port bindtype) es s os := by
  refine h.history_invariant_of (P := fun es s os => s.link.agent.connId ≤ 10 ^ 16 →
    Between full info (newCmd token ip port bindtype) es s os) (fun he hp hs hid => ?_) he
    (fun _ => between_start full info token ip port bindtype) hid
  have hle := (connId_le_of_step hs).trans hid
  exact (hp hle).step ht rfl rfl hle he hs

end Serving

end Wsnet.Pyodide
