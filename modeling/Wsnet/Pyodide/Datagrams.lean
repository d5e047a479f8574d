import Wsnet.Pyodide.Udp

/-!
# Datagrams through the tunnel

A `WSNetworkUDP`, an agent, and an ordered websocket between them. `Hears` is what the client has made of the packets
that the agent has sent, and `Between` what holds between two steps.
-/

namespace Wsnet.Pyodide

namespace WSNetworkUDP

/-- The frame of a packet says what the packet is when it arrives. -/
theorem packet_frame {token : Bytes} (ht : token.length = 16) {p : Packet} (hfit : p.Fits) :
    ∃ b, Wsnet.frames [.SDSRV (p.message token)] = [b] ∧
      CMD.fromBytes b = .ok (.SDSRV { p.message token with clientip := p.readdressed.2.1 }) := by
  have hcarries : Carries (fun data => .SDSRV { p.message token with data }) (40 + addressSize p.2.1) :=
    carries_SDSRV ht (show UdpClient.connectionToken.length = 16 from rfl) hfit.2
  obtain ⟨b, hb⟩ := hcarries.written p.1 hfit.1
  refine ⟨b, ?_, CMD.fromBytes_SDSRV (c := p.message token) hb ht rfl⟩
  simp only [Wsnet.frames, List.filterMap_cons, List.filterMap_nil]
  rw [show (CMD.SDSRV (p.message token)).toBytes = .ok b from hb]
  rfl

/-- The frames of packets. -/
def packetFrames (token : Bytes) (ps : List Packet) : List Bytes := Wsnet.frames (ps.map fun p => .SDSRV (p.message token))

/-- What the client has made of the packets `ps` of the agent, of which the frames `down` are on their way: it waits
for the answer, has failed, has taken the first of them, or has done so and stopped. -/
inductive Hears (token : Bytes) (opened : Bool) (ps : List Packet) (s : WSNetworkUDP) (down : List Bytes) : Prop
  | waiting (hpc : s.pc = .opening ∨ s.pc = .connecting) (hq : s.in_q = [])
    (hw : s.pending ++ down = Wsnet.frames (Relay.said token opened ps))
  | failed (hpc : s.pc = .failed) (hq : s.in_q = [.none])
  | running {got rest : List Packet} (hpc : s.pc = .connected) (hopen : opened = true) (hps : ps = got ++ rest)
    (hq : s.in_q = got.map item) (hw : s.pending ++ down = packetFrames token rest)
  | stopped {got rest : List Packet} (hpc : s.pc = .connected) (hopen : opened = true) (hps : ps = got ++ rest)
    (hq : s.in_q = got.map item) (hin : s.in_task.pc = .done)

section Hears
variable {token : Bytes} {opened opened' : Bool} {ps ps' : List Packet} {s s' : WSNetworkUDP} {down : List Bytes}
  {cs : List CMD} {e : Event} {o : List Bytes}

/-- The client is not connected as long as the agent has not answered. -/
theorem Hears.opened_of_connected (h : Hears token opened ps s down) (hpc : s.pc = .connected) : opened = true := by
  cases h with
  | waiting h => rcases h with h | h <;> rw [hpc] at h <;> cases h
  | failed h =>
    rw [hpc] at h
    cases h
  | running _ h => exact h
  | stopped _ h => exact h

/-- The agent says more. -/
theorem Hears.grow (h : Hears token opened ps s down) (hle : opened = true → opened' = true)
    (hsaid : Relay.said token opened' (ps ++ ps') = Relay.said token opened ps ++ cs) :
    Hears token opened' (ps ++ ps') s (down ++ Wsnet.frames cs) := by
  cases h with
  | waiting hpc hq hw => exact .waiting hpc hq (by rw [hsaid, frames_append, ← hw, List.append_assoc])
  | failed hpc hq => exact .failed hpc hq
  | @running got rest hpc hopen hps hq hw =>
    subst hopen
    obtain rfl : opened' = true := hle rfl
    have hcs : cs = ps'.map fun p => .SDSRV (p.message token) := by
      simpa [Relay.said] using hsaid.symm
    refine .running hpc rfl (show _ = got ++ (rest ++ ps') by rw [hps, List.append_assoc]) hq ?_
    rw [← List.append_assoc, hw, hcs, packetFrames, packetFrames, List.map_append, frames_append]
  | @stopped got rest hpc hopen hps hq hin =>
    exact .stopped hpc (hle hopen) (show _ = got ++ (rest ++ ps') by rw [hps, List.append_assoc]) hq hin

/-- A step that takes nothing. -/
theorem Hears.congr (h : Hears token opened ps s down) (hpc : s'.pc = s.pc) (hq : s'.in_q = s.in_q)
    (hpending : s'.pending = s.pending) (hin : s.in_task.pc = .done → s'.in_task.pc = .done) :
    Hears token opened ps s' down := by
  cases h with
  | waiting hpc' hq' hw => exact .waiting (by rwa [hpc]) (hq.trans hq') (by rwa [hpending])
  | failed hpc' hq' => exact .failed (hpc.trans hpc') (hq.trans hq')
  | running hpc' hopen hps hq' hw => exact .running (hpc.trans hpc') hopen hps (hq.trans hq') (by rwa [hpending])
  | stopped hpc' hopen hps hq' hdone => exact .stopped (hpc.trans hpc') hopen hps (hq.trans hq') (hin hdone)

theorem Hears.finishIn (h : Hears token opened ps s down) (hpc : s.pc = .connected) :
    Hears token opened ps s.finishIn down := by
  have hpc' : s.finishIn.pc = .connected := (pc_terminated s).trans hpc
  have hq' : s.finishIn.in_q = s.in_q := in_q_terminated s
  cases h with
  | waiting hpc'' => rcases hpc'' with h | h <;> rw [hpc] at h <;> cases h
  | failed hpc'' =>
    rw [hpc] at hpc''
    cases hpc''
  | running _ hopen hps hq => exact .stopped hpc' hopen hps (hq'.trans hq) rfl
  | stopped _ hopen hps hq => exact .stopped hpc' hopen hps (hq'.trans hq) rfl

theorem Hears.loop (h : Hears token opened ps s down) (hpc : s.pc = .connected) (hin : s.in_task.pc ≠ .done) :
    Hears token opened ps s.loop down := by
  unfold WSNetworkUDP.loop
  split
  · exact h.finishIn hpc
  · exact h.congr rfl rfl rfl fun hdone => absurd hdone hin

/-- The answer has come to a client that waits for it. -/
theorem takes_answer (ht : token.length = 16) {data : Bytes} (hclosed : opened = false → ps = []) (hq : s.in_q = [])
    (hw : data :: (s.pending ++ down) = Wsnet.frames (Relay.said token opened ps)) :
    Hears token opened ps (s.answer (some data)) down := by
  cases opened with
  | false =>
    rw [hclosed rfl] at hw
    cases hw
  | true =>
    obtain ⟨b, c, hb, hread⟩ := continueReply_frame ht
    have hfs : Wsnet.frames (Relay.said token true ps) = b :: packetFrames token ps := by
      rw [Relay.said, frames_append, if_pos rfl, hb]
      rfl
    obtain ⟨rfl, hrest⟩ := List.cons.inj (hw.trans hfs)
    simp only [answer, hread]
    exact .running rfl rfl (show ps = [] ++ ps from rfl) hq hrest

/-- A packet has come to `__handle_in`. -/
theorem takes_packet (ht : token.length = 16) {data : Bytes} {got rest : List Packet} (hfit : ∀ p ∈ rest, p.Fits)
    (hpc : s.pc = .connected) (hin : s.in_task.pc ≠ .done) (hq : s.in_q = got.map item)
    (hw : data :: (s.pending ++ down) = packetFrames token rest) :
    Hears token true (got ++ rest) (s.handle_in (some data)) down := by
  cases rest with
  | nil => cases hw
  | cons p rest =>
    obtain ⟨b, hb, hread⟩ := packet_frame ht (hfit p List.mem_cons_self)
    have hfs : packetFrames token (p :: rest) = b :: packetFrames token rest := by
      rw [packetFrames, List.map_cons, frames_cons, hb]
      rfl
    obtain ⟨rfl, hrest⟩ := List.cons.inj (hw.trans hfs)
    simp only [handle_in, hread]
    have hps : got ++ p :: rest = (got ++ [p]) ++ rest := by rw [List.append_assoc, List.singleton_append]
    refine Hears.loop (.running hpc rfl hps ?_ hrest) hpc hin
    rw [List.map_append, ← hq]
    rfl

theorem Hears.fail (h : Hears token opened ps s down) (hpc : s.pc = .opening ∨ s.pc = .connecting) :
    Hears token opened ps s.fail down := by
  cases h with
  | waiting _ hq => exact .failed rfl (congrArg (· ++ [Item.none]) hq)
  | failed h => rcases hpc with hpc | hpc <;> rw [h] at hpc <;> cases hpc
  | running h => rcases hpc with hpc | hpc <;> rw [h] at hpc <;> cases hpc
  | stopped h => rcases hpc with hpc | hpc <;> rw [h] at hpc <;> cases hpc

theorem Hears.message {data : Bytes} (h : Hears token opened ps s (data :: down)) :
    Hears token opened ps { s with internal_in_q := s.internal_in_q ++ [some data] } down := by
  have hwire : ({ s with internal_in_q := s.internal_in_q ++ [some data] } : WSNetworkUDP).pending ++ down =
      s.pending ++ data :: down := by
    simp [pending]
  cases h with
  | waiting hpc hq hw => exact .waiting hpc hq (hwire.trans hw)
  | failed hpc hq => exact .failed hpc hq
  | running hpc hopen hps hq hw => exact .running hpc hopen hps hq (hwire.trans hw)
  | stopped hpc hopen hps hq hin => exact .stopped hpc hopen hps hq hin

theorem Hears.takes (h : Hears token opened ps s down) (ht : token.length = 16) (hfit : ∀ p ∈ ps, p.Fits)
    {item : Option Bytes} {rest : List (Option Bytes)} (hq : s.internal_in_q = item :: rest) (hpc : s.pc = .connected)
    (hin : s.in_task.pc = .waiting) : Hears token opened ps ({ s with internal_in_q := rest }.handle_in item) down := by
  cases h with
  | waiting h => rcases h with h | h <;> rw [hpc] at h <;> cases h
  | failed h =>
    rw [hpc] at h
    cases h
  | stopped _ _ _ _ hdone =>
    rw [hin] at hdone
    cases hdone
  | @running got tail _ hopen hps hgot hw =>
    subst hopen hps
    cases item with
    | none =>
      refine Hears.finishIn (.running hpc rfl (show got ++ tail = got ++ tail from rfl) hgot ?_) hpc
      rw [← hw]
      simp [pending, hq]
    | some data =>
      refine takes_packet (s := { s with internal_in_q := rest }) ht
        (fun p hp => hfit p (List.mem_append_right _ hp)) hpc (by simp [hin]) hgot ?_
      rw [← hw]
      simp [pending, hq]

theorem Hears.replied (h : Hears token opened ps s down) (ht : token.length = 16) (hclosed : opened = false → ps = [])
    {item : Option Bytes} {rest : List (Option Bytes)} (hq : s.internal_in_q = item :: rest)
    (hpc : s.pc = .connecting) : Hears token opened ps ({ s with internal_in_q := rest }.answer item) down := by
  cases h with
  | failed h =>
    rw [hpc] at h
    cases h
  | running h =>
    rw [hpc] at h
    cases h
  | stopped h =>
    rw [hpc] at h
    cases h
  | waiting _ hnil hw =>
    cases item with
    | none => exact .failed rfl (congrArg (· ++ [Item.none]) hnil)
    | some data =>
      refine takes_answer (s := { s with internal_in_q := rest }) ht hclosed hnil ?_
      rw [← hw]
      simp [pending, hq]

/-- The step lemma of the receiving side. -/
theorem Hears.step (h : Hears token opened ps s down) (ht : token.length = 16) (hfit : ∀ p ∈ ps, p.Fits)
    (hclosed : opened = false → ps = []) (he : ∀ data, e ≠ .message data) (hs : s.step e = some (s', o)) :
    Hears token opened ps s' down := by
  cases turn_of_step hs with
  | message data => exact absurd rfl (he data)
  | asks hpc hb =>
    cases h with
    | waiting _ hq hw => exact .waiting (.inr rfl) hq hw
    | failed h =>
      rw [hpc] at h
      cases h
    | running h =>
      rw [hpc] at h
      cases h
    | stopped h =>
      rw [hpc] at h
      cases h
  | fails hpc => exact h.fail (.inl hpc)
  | disconnect => exact h.congr rfl rfl rfl id
  | answered hq hpc => exact h.replied ht hclosed hq hpc
  | takes hq hpc hin => exact h.takes ht hfit hq hpc hin
  | startIn hpc hin => exact h.loop hpc (by simp [hin])
  | cancelledIn hpc => exact h.finishIn hpc
  | neverIn => exact h.congr rfl rfl rfl fun _ => rfl
  | out hs hpc => exact h.congr rfl rfl rfl id
  | ends hs hpc => exact h.congr rfl rfl (by simp [endedOut, pending]) id
  | terminate =>
    refine h.congr (pc_terminated s) (in_q_terminated s) (pending_terminated s) fun hdone => ?_
    unfold terminated
    split <;> exact hdone

end Hears

end WSNetworkUDP

open WSNetworkUDP (Hears sentPackets asked item)

/-- A `WSNetworkUDP`, the agent, and the websocket between them, whose frames are in the link of the agent. -/
structure UdpTunnel where
  client : WSNetworkUDP
  relay : Relay

namespace UdpTunnel

inductive Event
  | client (e : WSNetworkUDP.Event)
  | relay (e : Relay.Event)

inductive Output
  | client (frame : Bytes)
  | relay (o : Relay.Output)

/-- Nothing has been done. -/
def start (full : Bool) (info : WSNGetInfoReply) (token : Bytes) (ip : String) (port : Int) : UdpTunnel where
  client := { ip, port, out := { token } }
  relay := { link := { agent := Agent.init full info } }

/-- The client has become `r.1` and sent `r.2`. -/
def putClient (s : UdpTunnel) (r : WSNetworkUDP × List Bytes) : UdpTunnel × List Output :=
  (⟨r.1, { s.relay with link := { s.relay.link with up := s.relay.link.up ++ r.2 } }⟩, r.2.map .client)

/-- The client gets the first frame that is on its way to it. -/
def step (s : UdpTunnel) : Event → Option (UdpTunnel × List Output)
  | .client (.message data) =>
    match s.relay.link.down with
    | b :: down =>
      if data = b then
        (s.client.step (.message data)).map
          ({ s with relay := { s.relay with link := { s.relay.link with down } } } : UdpTunnel).putClient
      else none
    | [] => none
  | .client e => (s.client.step e).map s.putClient
  | .relay e => (s.relay.step e).map fun r => ({ s with relay := r.1 }, r.2.map .relay)

/-! ### What is seen of a run -/

/-- What the user has put into `out_q`. -/
def given (es : List Event) : List WSNetworkUDP.Outgoing :=
  es.flatMap fun
    | .client e => e.given
    | _ => []

def relayEvents (es : List Event) : List Relay.Event :=
  es.filterMap fun
    | .relay e => some e
    | _ => none

/-- The packets that have come to the socket of the agent. -/
def arrived (es : List Event) : List Packet := Relay.arrived (relayEvents es)

def sentFrames (os : List Output) : List Bytes :=
  os.filterMap fun
    | .client b => some b
    | _ => none

def relayOutputs (os : List Output) : List Relay.Output :=
  os.filterMap fun
    | .relay o => some o
    | _ => none

/-- The packets that the agent has given to its socket. -/
def handed (os : List Output) : List Packet := Relay.handed (relayOutputs os)

/-- What a step does. -/
inductive Moves (s : UdpTunnel) : Event → UdpTunnel → List Output → Prop
  | message {data : Bytes} {down : List Bytes} (hd : s.relay.link.down = data :: down) :
    Moves s (.client (.message data)) ⟨{ s.client with internal_in_q := s.client.internal_in_q ++ [some data] },
      { s.relay with link := { s.relay.link with down } }⟩ []
  | client {e : WSNetworkUDP.Event} {c : WSNetworkUDP} {o : List Bytes} (he : ∀ data, e ≠ .message data)
    (hs : s.client.step e = some (c, o)) : Moves s (.client e)
      ⟨c, { s.relay with link := { s.relay.link with up := s.relay.link.up ++ o } }⟩ (o.map .client)
  | relay {e : Relay.Event} {r : Relay} {o : List Relay.Output} (hs : s.relay.step e = some (r, o)) :
    Moves s (.relay e) { s with relay := r } (o.map .relay)

section Runs
variable {s s' : UdpTunnel} {e : Event} {es es' : List Event} {o os os' : List Output} {full : Bool}
  {info : WSNGetInfoReply} {token : Bytes}

theorem moves_of_step (hs : s.step e = some (s', o)) : Moves s e s' o := by
  have hclient : ∀ {e : WSNetworkUDP.Event}, (∀ data, e ≠ .message data) →
      (s.client.step e).map s.putClient = some (s', o) → Moves s (.client e) s' o := by
    intro e he hs
    obtain ⟨⟨c, o'⟩, hstep, heq⟩ := Option.map_eq_some_iff.1 hs
    cases heq
    exact .client he hstep
  cases e with
  | relay e =>
    obtain ⟨⟨r, o'⟩, hstep, heq⟩ := Option.map_eq_some_iff.1 hs
    cases heq
    exact .relay hstep
  | client e =>
    cases e with
    | message data =>
      simp only [step] at hs
      split at hs
      · rename_i b down hdown
        split_ifs at hs with hb
        subst hb
        obtain ⟨_, hstep, heq⟩ := Option.map_eq_some_iff.1 hs
        cases hstep
        obtain ⟨rfl, rfl⟩ := Prod.mk.inj heq
        simp only [List.append_nil]
        exact .message hdown
      · cases hs
    | _ => exact hclient nofun hs

@[simp] theorem given_append : given (es ++ es') = given es ++ given es' := List.flatMap_append

@[simp] theorem relayEvents_append : relayEvents (es ++ es') = relayEvents es ++ relayEvents es' :=
  List.filterMap_append

@[simp] theorem sentFrames_append : sentFrames (os ++ os') = sentFrames os ++ sentFrames os' := List.filterMap_append

@[simp] theorem relayOutputs_append : relayOutputs (os ++ os') = relayOutputs os ++ relayOutputs os' :=
  List.filterMap_append

theorem outputs_client (fs : List Bytes) :
    sentFrames (fs.map .client) = fs ∧ relayOutputs (fs.map .client) = [] := by
  constructor
  · rw [sentFrames, List.filterMap_map]
    exact List.filterMap_some
  · rw [relayOutputs, List.filterMap_map, List.filterMap_eq_nil_iff]
    exact fun x _ => rfl

theorem outputs_relay (o : List Relay.Output) :
    sentFrames (o.map .relay) = [] ∧ relayOutputs (o.map .relay) = o := by
  constructor
  · rw [sentFrames, List.filterMap_map, List.filterMap_eq_nil_iff]
    exact fun x _ => rfl
  · rw [relayOutputs, List.filterMap_map]
    exact List.filterMap_some

/-! ### What holds between two steps -/

/-- Before the CONNECT has come to the agent, and behind it. -/
inductive Stage (full : Bool) (info : WSNGetInfoReply) (token : Bytes) (es : List Event) (s : UdpTunnel)
    (os : List Output) : Prop
  | fresh (hagent : s.relay.link.agent = Agent.init full info)
    (hup : ∀ b ∈ s.relay.link.up, s.relay.link.up = [b] ∧ s.client.connectCmd.toBytes = .ok b)
    (hpc : s.client.pc = .opening → s.relay.link.up = []) (hin : s.relay.in_queue = [])
    (hout : s.relay.writer_queue = []) (harrived : arrived es = []) (hrelayed : Relay.relayed (relayOutputs os) = [])
    (hreceived : Relay.received (relayOutputs os) = []) (hhanded : handed os = [])
    (hsaid : Agent.sentMessages (Relay.agentOutputs (relayOutputs os)) = [])
    (hsent : sentPackets (sentFrames os) = []) (hdown : s.relay.link.down = [])
    (htakes : Hears token false [] s.client s.relay.link.down)
  | relaying {c : WSNConnect} {u : UdpClient} {opened : Bool} (htok : c.token = token)
    (h : Relay.Relays full info c u opened (relayEvents es) s.relay (relayOutputs os))
    (hclosed : opened = false → s.relay.link.up = []) (hpc : s.client.pc ≠ .opening)
    (hup : WSNetworkUDP.OutTask.Expected token s.relay.link.up)
    (hflow : Relay.received (relayOutputs os) ++ sentPackets s.relay.link.up = sentPackets (sentFrames os))
    (htakes : Hears token opened (Relay.relayed (relayOutputs os)) s.client s.relay.link.down)

structure Between (full : Bool) (info : WSNGetInfoReply) (token : Bytes) (es : List Event) (s : UdpTunnel)
    (os : List Output) : Prop where
  same_token : s.client.token = token
  fits : ∀ p ∈ arrived es, p.Fits
  sends : s.client.out.Sends (given es) (sentFrames os)
  stage : Stage full info token es s os

/-- The packets that come to the agent fit into frames. -/
def Event.Fits : Event → Prop
  | .relay (.arrives d) => ∀ p ∈ d.packet?, p.Fits
  | _ => True

instance (p : Packet) : Decidable p.Fits := inferInstanceAs (Decidable (_ ∧ _))

instance : (e : Event) → Decidable e.Fits
  | .relay (.arrives d) => inferInstanceAs (Decidable (∀ p ∈ d.packet?, p.Fits))
  | .relay (.agent _) => .isTrue trivial
  | .client _ => .isTrue trivial

theorem start_between (ip : String) (port : Int) : Between full info token [] (start full info token ip port) [] where
  same_token := rfl
  fits _ hp := by cases hp
  sends := ⟨List.nil_prefix, fun _ _ => ⟨[], rfl, fun _ h => (by cases h), rfl⟩⟩
  stage := .fresh rfl (fun _ h => (by cases h)) (fun _ => rfl) rfl rfl rfl rfl rfl rfl rfl rfl rfl
    (.waiting (.inl rfl) rfl rfl)

theorem arrived_relay (e : Relay.Event) : arrived (es ++ [.relay e]) = arrived es ++ Relay.arrived [e] := by
  rw [arrived, relayEvents_append, Relay.arrived_append]
  rfl

theorem arrived_client (e : WSNetworkUDP.Event) : arrived (es ++ [.client e]) = arrived es := by
  rw [arrived, relayEvents_append, Relay.arrived_append]
  exact List.append_nil _

theorem mem_arrived_event {e : Relay.Event} {p : Packet} (he : Event.Fits (.relay e)) (hp : p ∈ Relay.arrived [e]) :
    p.Fits := by
  cases e with
  | agent e => cases hp
  | arrives d =>
    obtain ⟨e, he', hp⟩ := List.mem_filterMap.1 hp
    obtain rfl := List.mem_singleton.1 he'
    exact he p hp

/-- A step of the client. -/
theorem Stage.client {c : WSNetworkUDP} {o : List Bytes} {e : WSNetworkUDP.Event} (h : Stage full info token es s os)
    (ht : token.length = 16) (htok : s.client.token = token) (hfits : ∀ p ∈ arrived es, p.Fits)
    (he : ∀ data, e ≠ .message data) (hs : s.client.step e = some (c, o)) :
    Stage full info token (es ++ [.client e])
      ⟨c, { s.relay with link := { s.relay.link with up := s.relay.link.up ++ o } }⟩ (os ++ o.map .client) := by
  have hevents : relayEvents (es ++ [.client e]) = relayEvents es := by
    rw [relayEvents_append]
    exact List.append_nil _
  have hout : relayOutputs (os ++ o.map .client) = relayOutputs os := by
    rw [relayOutputs_append, (outputs_client o).2, List.append_nil]
  have hsent : sentFrames (os ++ o.map .client) = sentFrames os ++ o := by
    rw [sentFrames_append, (outputs_client o).1]
  obtain ⟨hcmd, -, hopening, hframes⟩ := WSNetworkUDP.frames_of_step (htok ▸ ht) hs
  cases h with
  | fresh hagent hup hpc hin hout' harrived hrelayed hreceived hhanded hsaid hsent' hdown htakes =>
    have htakes' := htakes.step ht (fun p hp => by cases hp) (fun _ => rfl) he hs
    have hnext : ∀ {up : List Bytes}, (∀ b ∈ up, up = [b] ∧ c.connectCmd.toBytes = .ok b) →
        (c.pc = .opening → up = []) → sentPackets o = [] → Stage full info token (es ++ [.client e])
          ⟨c, { s.relay with link := { s.relay.link with up } }⟩ (os ++ o.map .client) := by
      intro up hup hpc ho
      refine .fresh hagent hup hpc hin hout' ?_ ?_ ?_ ?_ ?_ ?_ hdown htakes'
      · rwa [arrived_client]
      · rwa [hout]
      · rwa [hout]
      · rwa [handed, hout]
      · rwa [hout]
      · rw [hsent, WSNetworkUDP.sentPackets_append, hsent', ho, List.append_nil]
    rcases hframes with rfl | ⟨hconn, -⟩ | ⟨hopen, hpc', ho, hone⟩
    · refine hnext ?_ ?_ rfl
      · rw [List.append_nil, hcmd]
        exact hup
      · rw [List.append_nil]
        exact fun h => hpc (by_contra fun hne => hopening hne h)
    · cases htakes.opened_of_connected hconn
    · rw [hpc hopen, List.nil_append]
      refine hnext ?_ ?_ ho
      · rw [hcmd]
        exact hone
      · rw [hpc']
        exact nofun
  | @relaying cn u opened hcn hrel hclosed hpc hup hflow htakes =>
    have hfit : ∀ p ∈ Relay.relayed (relayOutputs os), p.Fits := fun p hp => hfits p (hrel.inbound_le.subset hp)
    have htakes' := htakes.step ht hfit (fun h => (hrel.closed h).2) he hs
    have hquiet : (opened = false → o = []) ∧ WSNetworkUDP.OutTask.Expected token o := by
      rcases hframes with rfl | ⟨hconn, hexpected⟩ | ⟨hopen, -⟩
      · exact ⟨fun _ => rfl, WSNetworkUDP.OutTask.expected_nil⟩
      · refine ⟨fun hopened => ?_, htok ▸ hexpected⟩
        rw [htakes.opened_of_connected hconn] at hopened
        cases hopened
      · exact absurd hopen hpc
    have hrel' : Relay.Relays full info cn u opened (relayEvents (es ++ [.client e]))
        { s.relay with link := { s.relay.link with up := s.relay.link.up ++ o } }
        (relayOutputs (os ++ o.map .client)) := by
      rw [hevents, hout]
      exact hrel.of_link rfl
    refine .relaying hcn hrel' (fun h => ?_) (hopening hpc) (hup.append hquiet.2) ?_ ?_
    · show s.relay.link.up ++ o = []
      rw [hclosed h, hquiet.1 h]
      rfl
    · rw [hout, hsent, WSNetworkUDP.sentPackets_append, WSNetworkUDP.sentPackets_append, ← hflow, List.append_assoc]
    · rw [hout]
      exact htakes'

/-- A step of the agent. -/
theorem Stage.relay {r : Relay} {o : List Relay.Output} {e : Relay.Event} (h : Stage full info token es s os)
    (ht : token.length = 16) (htok : s.client.token = token) (hs : s.relay.step e = some (r, o)) :
    Stage full info token (es ++ [.relay e]) { s with relay := r } (os ++ o.map .relay) := by
  have hevents : relayEvents (es ++ [.relay e]) = relayEvents es ++ [e] := relayEvents_append
  have hout : relayOutputs (os ++ o.map .relay) = relayOutputs os ++ o := by
    rw [relayOutputs_append, (outputs_relay o).2]
  have hsent : sentFrames (os ++ o.map .relay) = sentFrames os := by
    rw [sentFrames_append, (outputs_relay o).1, List.append_nil]
  cases h with
  | fresh hagent hup hpc hin hout' harrived hrelayed hreceived hhanded hsaid hsent' hdown htakes =>
    have hinit := @Relay.step_of_init full info s.relay r e o hagent
      { token := s.client.token, protocol := "UDP", ip := s.client.ip, port := s.client.port } (htok ▸ ht) rfl rfl hup hs
    obtain ⟨hne, hup', hdown', hin', hwr', harr, hrelayed', hreceived', hhanded', hsaid', hagent'⟩ := hinit
    have harrived' : arrived (es ++ [.relay e]) = [] := by rw [arrived_relay, harrived, harr, List.append_nil]
    have h₁ : Relay.relayed (relayOutputs (os ++ o.map .relay)) = [] := by
      rw [hout, Relay.relayed_append, hrelayed, hrelayed', List.append_nil]
    have h₂ : Relay.received (relayOutputs (os ++ o.map .relay)) = [] := by
      rw [hout, Relay.received_append, hreceived, hreceived', List.append_nil]
    have h₃ : handed (os ++ o.map .relay) = [] := by
      rw [handed, hout, Relay.handed_append, hhanded', List.append_nil]
      exact hhanded
    have h₄ : Agent.sentMessages (Relay.agentOutputs (relayOutputs (os ++ o.map .relay))) = [] := by
      rw [hout, Relay.agentOutputs_append, Agent.sentMessages_append, hsaid, hsaid', List.append_nil]
    have hdownr : r.link.down = [] := hdown'.trans hdown
    have htakes' : Hears token false [] s.client r.link.down := hdown'.symm ▸ htakes
    rcases hagent' with hagent' | ⟨c, hc, hagent'⟩
    · exact .fresh hagent' (by simp [hup']) (fun _ => hup') (hin'.trans hin) (hwr'.trans hout') harrived' h₁ h₂ h₃ h₄
        (hsent ▸ hsent') hdownr htakes'
    · have hrel : Relay.Relays full info c { token := c.token } false (relayEvents (es ++ [.relay e])) r
          (relayOutputs (os ++ o.map .relay)) := by
        refine ⟨hagent', rfl, fun _ => rfl, by simp, fun _ => ⟨.inl rfl, h₁⟩, ?_, ?_, fun _ => ?_, ?_, fun _ => ?_⟩
        · rw [h₁, h₄]
          rfl
        · rw [h₁]
          exact List.nil_prefix
        · rw [h₁, hin', hin]
          exact harrived'
        · rw [h₂]
          exact h₃ ▸ List.nil_prefix
        · rw [h₂, hwr', hout']
          exact (congrArg (· ++ []) h₃).symm
      refine .relaying (hc.trans htok) hrel (fun _ => hup') (mt hpc hne) ?_ ?_ ?_
      · rw [hup']
        exact WSNetworkUDP.OutTask.expected_nil
      · rw [h₂, hup', hsent, hsent']
        rfl
      · rw [h₁]
        exact htakes'
  | @relaying cn u opened hcn hrel hclosed hpc hup hflow htakes =>
    have hop : ∀ data f, e = .agent (.recv data f) → opened = true ∧
        ∃ cmd, CMD.fromBytes data = .ok cmd ∧ Relay.FromOperator cn.token cmd := by
      rintro data f rfl
      have hhead := Relay.up_of_recv hs
      refine ⟨?_, hcn ▸ hup data (by rw [hhead]; exact List.mem_cons_self)⟩
      by_contra hne
      rw [hclosed (by simpa using hne)] at hhead
      cases hhead
    obtain ⟨u', opened', hle, hrel'⟩ := hrel.step hop hs
    -- the part of the wire that the step has taken
    have hwire : ∃ taken, s.relay.link.up = taken ++ r.link.up ∧ sentPackets taken = Relay.received o := by
      rcases hrel.received_of_step hop hs with ⟨data, cmd, hup', hread, rfl⟩ | ⟨hup', ho⟩
      · refine ⟨[data], hup', ?_⟩
        rw [sentPackets, decoded_cons_ok hread]
        cases cmd <;> rfl
      · exact ⟨[], hup'.symm, ho.symm⟩
    obtain ⟨taken, hup', htaken⟩ := hwire
    have hsaid := hrel'.said
    rw [Relay.agentOutputs_append, Agent.sentMessages_append, hrel.said, Relay.relayed_append] at hsaid
    rw [← hout, ← hevents] at hrel'
    refine .relaying hcn hrel' (fun h => ?_) hpc (fun b hb => hup b ?_) ?_ ?_
    · have hnil := hclosed (by_contra fun hne => by rw [hle (by simpa using hne)] at h; cases h)
      rw [hup'] at hnil
      exact (List.append_eq_nil_iff.1 hnil).2
    · rw [hup']
      exact List.mem_append_right _ hb
    · rw [hout, hsent, Relay.received_append, ← hflow, hup', WSNetworkUDP.sentPackets_append, htaken,
        List.append_assoc]
    · rw [hout, Relay.relayed_append, Relay.down_of_step hs]
      exact htakes.grow hle (by rw [← hcn]; exact hsaid.symm)

/-- A frame comes to the client. -/
theorem Stage.message {data : Bytes} {down : List Bytes} (h : Stage full info token es s os)
    (hd : s.relay.link.down = data :: down) : Stage full info token (es ++ [.client (.message data)])
      ⟨{ s.client with internal_in_q := s.client.internal_in_q ++ [some data] },
        { s.relay with link := { s.relay.link with down } }⟩ os := by
  have hevents : relayEvents (es ++ [.client (.message data)]) = relayEvents es := by
    rw [relayEvents_append]
    exact List.append_nil _
  cases h with
  | fresh _ _ _ _ _ _ _ _ _ _ _ hdown =>
    rw [hd] at hdown
    cases hdown
  | relaying hcn hrel hclosed hpc hup hflow htakes =>
    rw [hd] at htakes
    rw [← hevents] at hrel
    exact .relaying hcn (hrel.of_link rfl) hclosed hpc hup hflow htakes.message

theorem Between.step (h : Between full info token es s os) (ht : token.length = 16) (he : e.Fits)
    (hs : s.step e = some (s', o)) : Between full info token (es ++ [e]) s' (os ++ o) := by
  have htok := h.same_token
  cases moves_of_step hs with
  | @message data down hd =>
    rw [List.append_nil]
    refine ⟨htok, ?_, ?_, h.stage.message hd⟩
    · rw [arrived_client]
      exact h.fits
    · rw [given_append]
      exact (List.append_nil (given es)).symm ▸ h.sends
  | @client e c o hne hstep =>
    obtain ⟨-, htok', -⟩ := WSNetworkUDP.frames_of_step (htok ▸ ht) hstep
    refine ⟨htok'.trans htok, ?_, ?_, h.stage.client ht htok h.fits hne hstep⟩
    · rw [arrived_client]
      exact h.fits
    · rw [given_append, sentFrames_append, (outputs_client o).1]
      simpa [given] using WSNetworkUDP.sends_of_step h.sends (htok ▸ ht) hstep
  | @relay e r o hstep =>
    refine ⟨htok, fun p hp => ?_, ?_, h.stage.relay ht htok hstep⟩
    · rw [arrived_relay] at hp
      exact (List.mem_append.1 hp).elim (h.fits p) (mem_arrived_event he)
    · rw [given_append, sentFrames_append, (outputs_relay o).1, List.append_nil]
      exact (List.append_nil (given es)).symm ▸ h.sends

/-- Nothing is on its way to the remote end, and nobody on the way has stopped. -/
structure SettledOut (s : UdpTunnel) : Prop where
  ws : s.client.out.ws = true
  task : s.client.out.out_task.pc ≠ .done
  out_q : s.client.out.out_q = []
  up : s.relay.link.up = []
  writer_queue : s.relay.writer_queue = []
  writer : ∀ x ∈ s.relay.link.agent.sessions, ∀ u, x.task = .udpClient u → u.writer ≠ .done

/-- Nothing is on its way to the user, and nobody on the way has stopped. -/
structure SettledIn (s : UdpTunnel) : Prop where
  pc : s.client.pc = .connected
  task : s.client.in_task.pc ≠ .done
  internal_in_q : s.client.internal_in_q = []
  down : s.relay.link.down = []
  in_queue : s.relay.in_queue = []
  main : ∀ x ∈ s.relay.link.agent.sessions, ∀ u, x.task = .udpClient u → u.main ≠ .done

/-- The packets arrive in their order, none twice, each as it was sent but for the spelling of its address. -/
structure Intact (es : List Event) (s : UdpTunnel) (os : List Output) : Prop where
  outbound : handed os <+: (asked (given es)).map Packet.readdressed
  outbound_all : s.SettledOut → handed os = (asked (given es)).map Packet.readdressed
  inbound : s.client.in_q = [.none] ∨ s.client.in_q <+: (arrived es).map item
  inbound_all : s.SettledIn → s.client.in_q = (arrived es).map item

theorem packetFrames_eq_nil (ht : token.length = 16) {ps : List Packet} (hfit : ∀ p ∈ ps, p.Fits)
    (h : WSNetworkUDP.packetFrames token ps = []) : ps = [] := by
  cases ps with
  | nil => rfl
  | cons p ps =>
    obtain ⟨b, hb, -⟩ := WSNetworkUDP.packet_frame ht (hfit p List.mem_cons_self)
    rw [WSNetworkUDP.packetFrames, List.map_cons, frames_cons, hb] at h
    cases h

theorem Between.intact (h : Between full info token es s os) (ht : token.length = 16) : Intact es s os := by
  have hasked := h.sends.asked
  have hall : s.SettledOut → sentPackets (sentFrames os) = (asked (given es)).map Packet.readdressed := by
    intro hq
    obtain ⟨taken, hgiven, -, hsent⟩ := h.sends.runs hq.ws hq.task
    rw [hgiven, hq.out_q, List.append_nil]
    exact hsent
  cases h.stage with
  | fresh hagent hup hpc hin hout' harrived hrelayed hreceived hhanded hsaid hsent hdown htakes =>
    refine ⟨hhanded ▸ List.nil_prefix, fun hq => ?_, ?_, fun hq => ?_⟩
    · rw [← hall hq, hsent]
      exact hhanded
    · cases htakes with
      | waiting _ hq => exact .inr (hq ▸ List.nil_prefix)
      | failed _ hq => exact .inl hq
      | running _ h => cases h
      | stopped _ h => cases h
    · cases htakes.opened_of_connected hq.pc
  | @relaying cn u opened hcn hrel hclosed hpc hup hflow htakes =>
    have hsession : (⟨cn, .udpClient u⟩ : Session) ∈ s.relay.link.agent.sessions := by
      rw [hrel.agent]
      exact List.mem_singleton_self _
    have hreceived : Relay.received (relayOutputs os) <+: sentPackets (sentFrames os) :=
      ⟨sentPackets s.relay.link.up, hflow⟩
    refine ⟨(hrel.outbound_le.trans hreceived).trans hasked, fun hq => ?_, ?_, fun hq => ?_⟩
    · have hhanded := hrel.outbound (hq.writer _ hsession u rfl)
      rw [hq.writer_queue, List.map_nil, List.append_nil] at hhanded
      rw [← hall hq, ← hflow, hq.up, hhanded]
      exact (List.append_nil _).symm
    · have hinbound : ∀ {got rest : List Packet}, Relay.relayed (relayOutputs os) = got ++ rest →
          s.client.in_q = got.map item → s.client.in_q <+: (arrived es).map item := by
        intro got rest hps hq
        rw [hq]
        exact ((hps ▸ List.prefix_append got rest).trans hrel.inbound_le).map item
      cases htakes with
      | waiting _ hq => exact .inr (hq ▸ List.nil_prefix)
      | failed _ hq => exact .inl hq
      | running _ _ hps hq => exact .inr (hinbound hps hq)
      | stopped _ _ hps hq => exact .inr (hinbound hps hq)
    · have harrived := hrel.inbound (hq.main _ hsession u rfl)
      rw [hq.in_queue, packets, List.filterMap_nil, List.append_nil] at harrived
      have hpc := hq.pc
      cases htakes with
      | waiting h => rcases h with h | h <;> rw [hpc] at h <;> cases h
      | failed h =>
        rw [hpc] at h
        cases h
      | stopped _ _ _ _ hin => exact absurd hin hq.task
      | @running got rest _ _ hps hgot hw =>
        rw [WSNetworkUDP.pending, hq.internal_in_q, hq.down] at hw
        have hfit : ∀ p ∈ rest, p.Fits := by
          intro p hp
          refine h.fits p (hrel.inbound_le.subset ?_)
          rw [hps]
          exact List.mem_append_right _ hp
        rw [packetFrames_eq_nil ht hfit hw.symm, List.append_nil] at hps
        rw [hgot, ← hps, arrived, harrived]

/-- The datagrams of a UDP session are neither lost nor reordered nor doubled between the user and the socket. -/
theorem datagrams_intact (ht : token.length = 16) {ip : String} {port : Int} (hfit : ∀ e ∈ es, e.Fits)
    (h : Run step (start full info token ip port) es s os) : Intact es s os :=
  (h.history_invariant_of (P := Between full info token) (fun he hp hs => hp.step ht he hs) hfit
    (start_between ip port)).intact ht

end Runs

def oneToken : Bytes := List.replicate 16 1

/-- `"h"` goes to a name server, and `"y"` comes back. -/
def thereAndBack : List Event :=
  let frame (c : CMD) : Bytes := c.toBytes.toOption.getD []
  let session (e : UdpClient.Event) : Event := .relay (.agent (.session 0 (.udpClient e)))
  [.client (.opened false),
    .relay (.agent (.recv (frame (.CONNECT { token := oneToken, protocol := "UDP", ip := "10.0.0.9", port := 53 })) {})),
    .relay (.agent (.session 0 (.opening { raises := fun _ => none }))),
    .client (.message (frame (continueReply oneToken))), .client .get, .client .startIn, .client (.out .start),
    .client (.out (.put (some (some [104], "10.0.0.9", 53)))), .client (.out (.item none)), session .sent,
    session .writerStart,
    .relay (.agent (.recv (frame (.SDSRV (Packet.message oneToken ([104], "10.0.0.9", 53)))) {})),
    session (.writerGot [104] false), .relay (.arrives (.data [121] "10.0.0.9" 53)),
    session (.received (.data [121] "10.0.0.9" 53)),
    .client (.message (frame (.SDSRV (Packet.message oneToken ([121], "10.0.0.9", 53))))), .client .get]

theorem datagrams_intact_thereAndBack :
    ∃ s os, Run step (start true ⟨[], 1, "", "", "", "", "", "", "", ""⟩ oneToken "10.0.0.9" 53) thereAndBack s os ∧
      handed os = [([104], "10.0.0.9", 53)] ∧ s.client.in_q = [.datagram [121] "10.0.0.9" 53] ∧
        Intact thereAndBack s os := by
  have hends : (exec step (start true ⟨[], 1, "", "", "", "", "", "", "", ""⟩ oneToken "10.0.0.9" 53) thereAndBack).any
      (fun r => decide (handed r.2 = [([104], "10.0.0.9", 53)] ∧
        r.1.client.in_q = [.datagram [121] "10.0.0.9" 53])) = true := by
    decide +kernel
  obtain ⟨⟨s, os⟩, hexec, hends⟩ := (Option.any_eq_true _ _).1 hends
  obtain ⟨hhanded, hin⟩ := of_decide_eq_true hends
  have hfit : ∀ e ∈ thereAndBack, e.Fits := by
    decide +kernel
  exact ⟨s, os, .of_exec hexec, hhanded, hin, datagrams_intact rfl hfit (.of_exec hexec)⟩

end UdpTunnel

end Wsnet.Pyodide
