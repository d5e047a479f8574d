import Wsnet.Agent.Connections
import Wsnet.Agent.Link

/-!
# An agent with one TCP server

What an agent does that has got one CONNECT, for a TCP server: the answer, and then the messages of its connections,
each of which sends what it reads, between an empty message in front and two behind it (`TCPServerConnection.Line`).
`Hosting` says which session, connections and messages such an agent has.
-/

namespace Wsnet

/-! ### One connection -/

namespace TCPServerConnection

/-- The messages among the effects, and what is read. -/
def sends (os : List Effect) : List WSNServerSocketData :=
  os.filterMap fun
    | .sent m => some m
    | _ => none

def reads (os : List Effect) : List Bytes :=
  os.filterMap fun
    | .read data => some data
    | _ => none

def Event.reads : Event → List Bytes
  | .read data => [data]
  | _ => []

theorem reads_of_step {c c' : TCPServerConnection} {e : Event} {o : List Effect} (hs : c.step e = some (c', o)) :
    reads o = e.reads := by
  have hfinish : ∀ c : TCPServerConnection, reads c.finish.2 = [] := fun c => by
    unfold finish beginStop
    split <;> rfl
  have hloop : ∀ c : TCPServerConnection, reads c.loop.2 = [] := fun c => by
    unfold loop
    split
    · exact hfinish c
    · rfl
  revert hs
  fun_cases step c e <;> intro hs <;> try (cases hs; done)
  all_goals obtain rfl := congrArg Prod.snd (Option.some.inj hs)
  all_goals first | rfl | exact hfinish _ | exact hloop _

/-- A connection that has read `rs` and sent messages with the data `ps`. -/
inductive Line (c : TCPServerConnection) : List Bytes → List Bytes → Prop
  | accepted (hrun : c.run = .accepted) (hd : c.disconnected = false) : Line c [] []
  | opening (hrun : c.run = .opening) (hd : c.disconnected = false) : Line c [] [[]]
  | reading {rs : List Bytes} (hrun : c.run = .reading) (hd : c.disconnected = false) (h : [] ∉ rs) :
    Line c rs ([] :: rs)
  | sending {rs : List Bytes} (data : Bytes) (hrun : c.run = .sendingData data) (hd : c.disconnected = false)
    (h : [] ∉ rs) : Line c (rs ++ [data]) ([] :: (rs ++ [data]))
  /-- the read of the end and the `stop` behind it are both sent -/
  | closed {rs : List Bytes} (hrun : c.run = .stopping ∨ c.run = .done) (h : [] ∉ rs) :
    Line c (rs ++ [[]]) ([] :: (rs ++ [[], []]))

namespace Line
variable {c c' : TCPServerConnection} {rs ps : List Bytes} {e : Event} {o : List Effect}

theorem nil_of_accepted (h : Line c rs ps) (hrun : c.run = .accepted) : ps = [] := by
  cases h with
  | accepted => rfl
  | opening hrun' | reading hrun' | sending _ hrun' =>
    rw [hrun] at hrun'
    cases hrun'
  | closed hrun' => simp [hrun] at hrun'

/-- What a step of a connection leaves alone, and the messages it sends. -/
structure Sends (c c' : TCPServerConnection) (e : Event) (ms : List WSNServerSocketData) : Prop where
  token : c'.token = c.token
  peername : c'.peername = c.peername
  run : c'.run ≠ .accepted
  connectiontoken : c.run ≠ .accepted → c'.connectiontoken = c.connectiontoken
  messages : ∀ m ∈ ms, m.token = c.token ∧ m.connectiontoken = c'.connectiontoken ∧
    ((m.clientip = "" ∧ m.clientport = 0 ∧ (m.data = [] ∨ e = .read m.data)) ∨
      m.data = [] ∧ c.peername = .pair m.clientip m.clientport)

theorem step (h : Line c rs ps) (hp : ∃ host port, c.peername = .pair host port) (hsend : e ≠ .sendFailed)
    (hread : e ≠ .readFailed) (hs : c.step e = some (c', o)) :
    Line c' (rs ++ reads o) (ps ++ (sends o).map (·.data)) ∧ Sends c c' e (sends o) := by
  obtain ⟨host, port, hp⟩ := hp
  cases h with
  | accepted hrun hd =>
    cases e with
    | start ct =>
      simp only [TCPServerConnection.step, hrun, if_true, hp, Option.some.injEq, Prod.mk.injEq] at hs
      obtain ⟨rfl, rfl⟩ := hs
      refine ⟨.opening rfl hd, rfl, hp.symm, by simp, fun hne => absurd hrun hne, ?_⟩
      simp [sends, hp]
    | _ => simp [TCPServerConnection.step, hrun] at hs
  | opening hrun hd =>
    cases e with
    | sent =>
      simp only [TCPServerConnection.step, hrun, loop, hd, Bool.false_eq_true, if_false, Option.some.injEq,
        Prod.mk.injEq] at hs
      obtain ⟨rfl, rfl⟩ := hs
      exact ⟨.reading rfl rfl List.not_mem_nil, rfl, rfl, by simp, fun _ => rfl, by simp [sends]⟩
    | sendFailed => exact absurd rfl hsend
    | _ => simp [TCPServerConnection.step, hrun] at hs
  | reading hrun hd h =>
    cases e with
    | read data =>
      simp only [TCPServerConnection.step, hrun, if_true, Option.some.injEq, Prod.mk.injEq] at hs
      obtain ⟨rfl, rfl⟩ := hs
      exact ⟨.sending data rfl hd h, rfl, rfl, by simp, fun _ => rfl, by simp [sends]⟩
    | readFailed => exact absurd rfl hread
    | _ => simp [TCPServerConnection.step, hrun, hd] at hs
  | @sending rs data hrun hd h =>
    cases e with
    | sent =>
      simp only [TCPServerConnection.step, hrun] at hs
      split at hs
      case isTrue hnil =>
        subst hnil
        simp only [finish, beginStop, hd, Bool.false_eq_true, if_false, Option.some.injEq, Prod.mk.injEq] at hs
        obtain ⟨rfl, rfl⟩ := hs
        refine ⟨?_, rfl, rfl, by simp, fun _ => rfl, by simp [sends, emptyMessage]⟩
        have hclosed := Line.closed (c := { c with disconnected := true, run := .stopping }) (.inl rfl) h
        simpa [reads, sends, emptyMessage] using hclosed
      case isFalse hne =>
        simp only [loop, hd, Bool.false_eq_true, if_false, Option.some.injEq, Prod.mk.injEq] at hs
        obtain ⟨rfl, rfl⟩ := hs
        refine ⟨?_, rfl, rfl, by simp, fun _ => rfl, by simp [sends]⟩
        have hreading := @Line.reading { c with run := .reading, disconnected := false } (rs ++ [data]) rfl rfl
          (by simp [h, Ne.symm hne])
        simpa [reads, sends] using hreading
    | sendFailed => exact absurd rfl hsend
    | _ => simp [TCPServerConnection.step, hrun] at hs
  | closed hrun h =>
    rcases hrun with hrun | hrun
    · cases e with
      | sent =>
        simp only [TCPServerConnection.step, hrun, endStop, if_true, Option.some.injEq, Prod.mk.injEq] at hs
        obtain ⟨rfl, rfl⟩ := hs
        refine ⟨?_, rfl, rfl, by simp, fun _ => rfl, by simp [sends]⟩
        have hclosed := Line.closed (c := { c with closed := true, run := .done }) (.inr rfl) h
        simpa [reads, sends] using hclosed
      | sendFailed => exact absurd rfl hsend
      | _ => simp [TCPServerConnection.step, hrun] at hs
    · cases e <;> simp [TCPServerConnection.step, hrun] at hs

end Line

end TCPServerConnection

/-! ### The server -/

/-- The messages of `socket_connect` so far, and whether connections are accepted. -/
inductive TcpServer.Said (s : TcpServer) : List CMD → Prop
  | nothing (hp : s.Pending) (hl : s.listening = false) : Said s []
  | refused {reason exc : String} (hm : s.main = .sendingErr ∨ s.main = .done) (hl : s.listening = false) :
    Said s [errReply s.full s.token reason exc]
  | bound (hm : s.main = .sendingContinue ∨ s.main = .done) (hl : s.listening = true) : Said s [continueReply s.token]

theorem TcpServer.Said.step {s s' : TcpServer} {e : TcpServer.Event} {o : List Effect} {cs : List CMD} (h : s.Said cs)
    (hc : s.cancelled = false) (hsend : ∀ exc, e ≠ .sendFailed exc) (hs : s.step e = some (s', o)) :
    s'.Said (cs ++ messages o) ∧ s'.cancelled = false ∧
      (s.listening = true → s'.listening = true ∧ messages o = []) := by
  cases e with
  | start =>
    simp only [TcpServer.step] at hs
    split_ifs at hs with hm hn <;> cases hs <;> cases h with
    | nothing hp hl => first
      | exact ⟨.nothing (.inr rfl) hl, hc, fun hl' => ⟨hl', rfl⟩⟩
      | exact ⟨.refused (.inl rfl) hl, hc, fun hl' => by rw [hl] at hl'; cases hl'⟩
    | _ hm' => simp [hm] at hm'
  | opened =>
    simp only [TcpServer.step] at hs
    split_ifs at hs with hm
    cases hs
    cases h with
    | nothing _ hl => exact ⟨.bound (.inl rfl) rfl, hc, fun hl' => by rw [hl] at hl'; cases hl'⟩
    | _ hm' => simp [hm] at hm'
  | openFailed exc =>
    simp only [TcpServer.step] at hs
    split_ifs at hs with hm
    cases hs
    cases h with
    | nothing _ hl => exact ⟨.refused (.inl rfl) hl, hc, fun hl' => by rw [hl] at hl'; cases hl'⟩
    | _ hm' => simp [hm] at hm'
  | sent =>
    simp only [TcpServer.step] at hs
    split at hs
    · rename_i hm
      cases hs
      cases h with
      | nothing hp => simp [TcpServer.Pending, hm] at hp
      | refused hm' => simp [hm] at hm'
      | bound _ hl => exact ⟨.bound (.inr rfl) hl, hc, fun _ => ⟨hl, rfl⟩⟩
    · rename_i hm
      cases hs
      cases h with
      | nothing hp => simp [TcpServer.Pending, hm] at hp
      | refused _ hl =>
        rw [messages_nil, List.append_nil]
        exact ⟨.refused (.inr rfl) hl, hc, fun hl' => ⟨hl', rfl⟩⟩
      | bound hm' => simp [hm] at hm'
    · cases hs
  | sendFailed exc => exact absurd rfl (hsend exc)
  | serveStart =>
    simp only [TcpServer.step] at hs
    split_ifs at hs
    cases hs
    rw [messages_nil, List.append_nil]
    refine ⟨?_, hc, fun hl => ⟨hl, rfl⟩⟩
    cases h with
    | nothing hp hl => exact .nothing hp hl
    | refused hm hl => exact .refused hm hl
    | bound hm hl => exact .bound hm hl
  | serveCancel => simp [TcpServer.step, hc] at hs

/-! ### What the connections of an agent do -/

/-- The frame of the message fits into four bytes of length, and its port into two. -/
def WSNServerSocketData.Fits (m : WSNServerSocketData) : Prop :=
  40 + addressSize m.clientip + m.data.length < 256 ^ 4 ∧ 0 ≤ m.clientport ∧ m.clientport < 65536

theorem Session.tcpServer_of_step {cmd : WSNConnect} {ts : TcpServer} {s' : Session} {e : Session.Event}
    {o : List Effect} (hs : Session.step ⟨cmd, .tcpServer ts⟩ e = some (s', o)) (he : e.isSendFailed = false) :
    ∃ e' ts', s' = ⟨cmd, .tcpServer ts'⟩ ∧ ts.step e' = some (ts', o) ∧ ∀ exc, e' ≠ .sendFailed exc := by
  obtain ⟨hcmd, htask⟩ := Session.step_eq_some hs
  obtain ⟨cmd', task⟩ := s'
  obtain rfl : cmd = cmd' := hcmd.symm
  generalize hk : Session.taskEvent ⟨cmd, .tcpServer ts⟩ e = e' at htask
  cases htask with
  | @tcpServer _ ts' e' o hstep =>
    refine ⟨e', ts', rfl, hstep, ?_⟩
    rintro exc rfl
    cases e with
    | opening os =>
      simp only [Session.taskEvent, Session.outcome] at hk
      split at hk <;> cases hk
    | tcpServer e =>
      cases hk
      cases he
    | _ => cases hk

namespace Agent

/-- The messages that connections have sent. -/
def connMessages (os : List Output) : List WSNServerSocketData :=
  os.filterMap fun
    | .conn _ (.sent m) => some m
    | _ => none

/-- The messages that the connection `j` has sent. -/
def sentBy (j : Nat) (os : List Output) : List WSNServerSocketData :=
  os.filterMap fun
    | .conn i (.sent m) => if i = j then some m else none
    | _ => none

/-- What the connection `j` has read. -/
def readBy (j : Nat) (os : List Output) : List Bytes :=
  os.filterMap fun
    | .conn i (.read data) => if i = j then some data else none
    | _ => none

section outputs
variable {os os' : List Output} {i j : Nat} {m : WSNServerSocketData}

@[simp] theorem connMessages_append : connMessages (os ++ os') = connMessages os ++ connMessages os' :=
  List.filterMap_append

@[simp] theorem sentBy_append : sentBy j (os ++ os') = sentBy j os ++ sentBy j os' := List.filterMap_append

@[simp] theorem readBy_append : readBy j (os ++ os') = readBy j os ++ readBy j os' := List.filterMap_append

@[simp] theorem sentMessages_append : sentMessages (os ++ os') = sentMessages os ++ sentMessages os' :=
  List.filterMap_append

theorem connMessages_conn (o : List TCPServerConnection.Effect) :
    connMessages (o.map (.conn i)) = TCPServerConnection.sends o := by
  rw [connMessages, List.filterMap_map]
  refine List.filterMap_congr fun x _ => ?_
  cases x <;> rfl

theorem sentBy_conn (o : List TCPServerConnection.Effect) :
    sentBy j (o.map (.conn i)) = if i = j then TCPServerConnection.sends o else [] := by
  by_cases h : i = j
  · rw [if_pos h, sentBy, List.filterMap_map]
    refine List.filterMap_congr fun x _ => ?_
    cases x <;> simp [h]
  · rw [if_neg h, sentBy, List.filterMap_map, List.filterMap_eq_nil_iff]
    intro x _
    cases x <;> simp [h]

theorem readBy_conn (o : List TCPServerConnection.Effect) :
    readBy j (o.map (.conn i)) = if i = j then TCPServerConnection.reads o else [] := by
  by_cases h : i = j
  · rw [if_pos h, readBy, List.filterMap_map]
    refine List.filterMap_congr fun x _ => ?_
    cases x <;> simp [h]
  · rw [if_neg h, readBy, List.filterMap_map, List.filterMap_eq_nil_iff]
    intro x _
    cases x <;> simp [h]

theorem sentMessages_conn (o : List TCPServerConnection.Effect) :
    sentMessages (o.map (.conn i)) = (TCPServerConnection.sends o).map .SDSRV := by
  rw [sentMessages, TCPServerConnection.sends, List.filterMap_map, List.map_filterMap]
  refine List.filterMap_congr fun x _ => ?_
  cases x <;> rfl

theorem outputs_session (t : Bytes) (o : List Effect) : connMessages (o.map (.session t)) = [] ∧
    (∀ j, sentBy j (o.map (.session t)) = []) ∧ (∀ j, readBy j (o.map (.session t)) = []) ∧
      sentMessages (o.map (.session t)) = messages o := by
  refine ⟨?_, fun j => ?_, fun j => ?_, ?_⟩
  · rw [connMessages, List.filterMap_map, List.filterMap_eq_nil_iff]
    exact fun x _ => rfl
  · rw [sentBy, List.filterMap_map, List.filterMap_eq_nil_iff]
    exact fun x _ => rfl
  · rw [readBy, List.filterMap_map, List.filterMap_eq_nil_iff]
    exact fun x _ => rfl
  · rw [sentMessages, messages, List.filterMap_map]
    refine List.filterMap_congr fun x _ => ?_
    cases x <;> rfl

theorem mem_sentBy : m ∈ sentBy j os ↔ .conn j (.sent m) ∈ os := by
  rw [sentBy, List.mem_filterMap]
  constructor
  · rintro ⟨x, hx, hm⟩
    split at hm
    · split_ifs at hm with hi
      cases hm
      rwa [← hi]
    · cases hm
  · exact fun h => ⟨_, h, by simp⟩

theorem mem_connMessages : m ∈ connMessages os ↔ ∃ j, m ∈ sentBy j os := by
  simp only [mem_sentBy]
  rw [connMessages, List.mem_filterMap]
  constructor
  · rintro ⟨x, hx, hm⟩
    split at hm
    · cases hm
      exact ⟨_, hx⟩
    · cases hm
  · rintro ⟨j, h⟩
    exact ⟨_, h, rfl⟩

/-- The messages of one connection, picked by its connection token. -/
theorem filter_connMessages {ct : Bytes} (h : ∀ i m, m ∈ sentBy i os → (m.connectiontoken = ct ↔ i = j)) :
    (connMessages os).filter (fun m => m.connectiontoken = ct) = sentBy j os := by
  rw [connMessages, List.filter_filterMap, sentBy]
  refine List.filterMap_congr fun x hx => ?_
  cases x with
  | conn i e =>
    cases e with
    | sent m =>
      have hiff := h i m (mem_sentBy.2 hx)
      by_cases hi : i = j
      · simp [hi, hiff.2 hi, Option.filter]
      · simp [hi, mt hiff.1 hi, Option.filter]
    | _ => rfl
  | _ => rfl

end outputs

/-- The connection `j` of a server with the token `token`. -/
structure Serves (token : Bytes) (os : List Output) (j : Nat) (c : TCPServerConnection) : Prop where
  token_eq : c.token = token
  peername : ∃ host port, c.peername = .pair host port ∧ 40 + addressSize host < 256 ^ 4 ∧ 0 ≤ port ∧ port < 65536
  line : c.Line (readBy j os) ((sentBy j os).map (·.data))
  messages : ∀ m ∈ sentBy j os, m.token = token ∧ m.connectiontoken = c.connectiontoken ∧ m.Fits

/-- The agent has one session, a TCP server that has said `cs`. -/
structure Hosting (token : Bytes) (a : Agent) (os : List Output) (cs : List CMD) : Prop where
  idle : a.incoming = .idle
  resolving : a.resolving = []
  session : ∃ cmd ts, a.sessions = [⟨cmd, .tcpServer ts⟩] ∧ ts.token = token ∧ ts.cancelled = false ∧ ts.Said cs ∧
    (a.conns ≠ [] → ts.listening = true)
  said : sentMessages os = cs ++ (connMessages os).map .SDSRV
  serves : ∀ j c, a.conns[j]? = some c → Serves token os j c
  unused : ∀ j, a.conns[j]? = none → sentBy j os = [] ∧ readBy j os = []

/-- No send and no read fails, and the address of a peer is a pair that fits into a frame. -/
def Event.Reliable : Event → Prop
  | .accept _ peername =>
    ∃ host port, peername = .pair host port ∧ 40 + addressSize host < 256 ^ 4 ∧ 0 ≤ port ∧ port < 65536
  | .conn _ .readFailed => False
  | .conn _ (.read data) => data.length ≤ 65536
  | e => e.isSendFailed = false

theorem getElem?_singleton_eq_some {α : Type} {x y : α} {i : Nat} (h : [x][i]? = some y) : i = 0 ∧ x = y := by
  cases i with
  | zero => exact ⟨rfl, Option.some.inj h⟩
  | succ i => cases h

theorem getElem?_snoc {α : Type} {l : List α} {x y : α} {i : Nat} (h : (l ++ [x])[i]? = some y) :
    l[i]? = some y ∨ i = l.length ∧ y = x := by
  rcases lt_trichotomy i l.length with hlt | rfl | hlt
  · exact .inl (by rwa [List.getElem?_append_left hlt] at h)
  · exact .inr ⟨rfl, by simpa using h.symm⟩
  · rw [List.getElem?_eq_none (by simp; omega)] at h
    cases h

theorem Event.Reliable.isSendFailed {e : Event} (h : e.Reliable) : e.isSendFailed = false := by
  cases e with
  | accept => rfl
  | conn j e =>
    cases e with
    | read | readFailed => rfl
    | _ => exact h
  | _ => exact h

/-- What the connection `j` reads. -/
def Event.reads (j : Nat) : Event → List Bytes
  | .conn i (.read data) => if i = j then [data] else []
  | _ => []

section Hosting
variable {token : Bytes} {a a' : Agent} {os o : List Output} {cs : List CMD} {e : Event}

theorem Hosting.connMessages_eq_nil (hp : Hosting token a os cs) (hnil : a.conns = []) : connMessages os = [] := by
  refine List.eq_nil_iff_forall_not_mem.2 fun m hm => ?_
  obtain ⟨j, hj⟩ := mem_connMessages.1 hm
  rw [(hp.unused j (by rw [hnil]; rfl)).1] at hj
  cases hj

theorem outputs_conn_ne {i j : Nat} (h : i ≠ j) (os : List Output) (o : List TCPServerConnection.Effect) :
    sentBy j (os ++ o.map (.conn i)) = sentBy j os ∧ readBy j (os ++ o.map (.conn i)) = readBy j os := by
  constructor
  · rw [sentBy_append, sentBy_conn, if_neg h, List.append_nil]
  · rw [readBy_append, readBy_conn, if_neg h, List.append_nil]

theorem Serves.congr {j : Nat} {c : TCPServerConnection} {os' : List Output} (hj : Serves token os j c)
    (hout : sentBy j os' = sentBy j os ∧ readBy j os' = readBy j os) : Serves token os' j c where
  token_eq := hj.token_eq
  peername := hj.peername
  line := by
    rw [hout.1, hout.2]
    exact hj.line
  messages m hm := hj.messages m (by rwa [hout.1] at hm)

theorem Serves.step {j : Nat} {c c' : TCPServerConnection} {o : List TCPServerConnection.Effect}
    {e : TCPServerConnection.Event} (hj : Serves token os j c) (hsend : e ≠ .sendFailed) (hread : e ≠ .readFailed)
    (hsize : ∀ data, e = .read data → data.length ≤ 65536) (hs : c.step e = some (c', o)) :
    Serves token (os ++ o.map (.conn j)) j c' := by
  obtain ⟨host, port, hpeer, hfits⟩ := hj.peername
  obtain ⟨hline, hsends⟩ := hj.line.step ⟨host, port, hpeer⟩ hsend hread hs
  refine ⟨hsends.token.trans hj.token_eq, ⟨host, port, hsends.peername.trans hpeer, hfits⟩, ?_, fun m hm => ?_⟩
  · rw [readBy_append, readBy_conn, if_pos rfl, sentBy_append, sentBy_conn, if_pos rfl, List.map_append]
    exact hline
  rw [sentBy_append, sentBy_conn, if_pos rfl, List.mem_append] at hm
  rcases hm with hm | hm
  · obtain ⟨htok, hct, hfit⟩ := hj.messages m hm
    refine ⟨htok, hct.trans (hsends.connectiontoken fun hrun => ?_).symm, hfit⟩
    have hnil := hj.line.nil_of_accepted hrun
    rw [List.map_eq_nil_iff.1 hnil] at hm
    cases hm
  · obtain ⟨htok, hct, hdata⟩ := hsends.messages m hm
    refine ⟨htok.trans hj.token_eq, hct, ?_⟩
    rcases hdata with ⟨hip, hport, hdata⟩ | ⟨hdata, hp⟩
    · have hlen : m.data.length ≤ 65536 := by
        rcases hdata with hdata | hdata
        · simp [hdata]
        · exact hsize _ hdata
      refine ⟨?_, by omega⟩
      rw [hip, show addressSize "" = 5 by decide]
      omega
    · rw [hpeer] at hp
      cases hp
      rw [WSNServerSocketData.Fits, hdata]
      exact ⟨by simpa using hfits.1, hfits.2⟩

theorem Hosting.conn {j : Nat} {c c' : TCPServerConnection} {o : List TCPServerConnection.Effect}
    {e : TCPServerConnection.Event} (hp : Hosting token a os cs) (hc : a.conns[j]? = some c) (hsend : e ≠ .sendFailed)
    (hread : e ≠ .readFailed) (hsize : ∀ data, e = .read data → data.length ≤ 65536) (hs : c.step e = some (c', o))
    (connId : Nat) : Hosting token ({ a with connId }.putConn j c' o).1 (os ++ (a.putConn j c' o).2) cs := by
  obtain ⟨table, htable, -⟩ := putConn_frame { a with connId } j c' o
  have hlt : j < a.conns.length := (List.getElem?_eq_some_iff.1 hc).1
  rw [htable, show (a.putConn j c' o).2 = o.map (.conn j) from rfl]
  refine ⟨hp.idle, hp.resolving, ?_, ?_, fun i d hd => ?_, fun i hi => ?_⟩
  · obtain ⟨cmd, ts, hss, htok, hcan, hsaid, hlisten⟩ := hp.session
    refine ⟨cmd, ts, hss, htok, hcan, hsaid, fun _ => hlisten fun hnil => ?_⟩
    rw [hnil] at hlt
    cases hlt
  · rw [sentMessages_append, sentMessages_conn, connMessages_append, connMessages_conn, hp.said, List.map_append,
      List.append_assoc]
  · dsimp only at hd
    by_cases hne : j = i
    · subst hne
      rw [List.getElem?_set_self hlt] at hd
      cases hd
      exact (hp.serves j c hc).step hsend hread hsize hs
    · rw [List.getElem?_set_ne hne] at hd
      exact (hp.serves i d hd).congr (outputs_conn_ne hne os o)
  · dsimp only at hi
    have hne : j ≠ i := by
      rintro rfl
      rw [List.getElem?_set_self hlt] at hi
      cases hi
    rw [List.getElem?_set_ne hne] at hi
    rw [(outputs_conn_ne hne os o).1, (outputs_conn_ne hne os o).2]
    exact hp.unused i hi

/-- What an agent does that has no message in hand. -/
inductive IdleStep (a : Agent) : Event → Agent → List Output → Prop
  | session {i : Nat} {e : Session.Event} {s s' : Session} {o : List Effect} (hi : a.sessions[i]? = some s)
    (hs : s.step e = some (s', o)) :
    IdleStep a (.session i e) (a.putSession i s' o).1 (o.map (.session s'.cmd.token))
  | accept {i : Nat} {cmd : WSNConnect} {t : TcpServer} (hi : a.sessions[i]? = some ⟨cmd, .tcpServer t⟩)
    (hl : t.listening = true) (peername : Peername) :
    IdleStep a (.accept i peername) { a with conns := a.conns ++ [{ token := t.token, peername }] } []
  | conn {j : Nat} {e : TCPServerConnection.Event} {c c' : TCPServerConnection} {o : List TCPServerConnection.Effect}
    (hj : a.conns[j]? = some c) (hs : c.step e = some (c', o)) (connId : Nat) (hle : a.connId ≤ connId) :
    IdleStep a (.conn j e) ({ a with connId }.putConn j c' o).1 (o.map (.conn j))

theorem idleStep_of_step (hi : a.incoming = .idle) (hres : a.resolving = []) (hr : ∀ data f, e ≠ .recv data f)
    (hs : a.step e = some (a', o)) : IdleStep a e a' o := by
  cases e with
  | recv data f => exact absurd rfl (hr data f)
  | session i e =>
    simp only [Agent.step] at hs
    split_ifs at hs
    split at hs
    · obtain ⟨⟨s', o'⟩, hstep, heq⟩ := Option.map_eq_some_iff.1 hs
      cases heq
      exact .session ‹_› hstep
    · cases hs
  | accept i peername =>
    simp only [Agent.step] at hs
    split at hs
    · split_ifs at hs with hl
      cases hs
      exact .accept ‹_› hl peername
    · cases hs
  | conn j e =>
    cases hc : a.conns[j]? with
    | none => cases e <;> simp [Agent.step, hc] at hs
    | some c =>
      cases e with
      | start ct =>
        simp only [Agent.step, hc] at hs
        split_ifs at hs
        obtain ⟨⟨c', o'⟩, hstep, heq⟩ := Option.map_eq_some_iff.1 hs
        cases heq
        exact .conn hc hstep _ (Nat.le_succ _)
      | _ =>
        simp only [Agent.step, hc] at hs
        obtain ⟨⟨c', o'⟩, hstep, heq⟩ := Option.map_eq_some_iff.1 hs
        cases heq
        exact .conn hc hstep a.connId le_rfl
  | resolved | resolveSent | resolveFailed => simp [Agent.step, hres] at hs
  | _ => simp [Agent.step, stepIncoming, hi] at hs

/-- Connections are added by `accept` alone. -/
theorem IdleStep.conns (hs : IdleStep a e a' o) : a.connId ≤ a'.connId ∧
    ((∃ i peername c, e = .accept i peername ∧ a'.conns = a.conns ++ [c]) ∨
      (∀ i peername, e ≠ .accept i peername) ∧ a'.conns.length = a.conns.length) := by
  cases hs with
  | session hi hs =>
    rw [connId_putSession, conns_putSession]
    exact ⟨le_rfl, .inr ⟨fun _ _ h => (by cases h), rfl⟩⟩
  | accept hi hl peername => exact ⟨le_rfl, .inl ⟨_, _, _, rfl, rfl⟩⟩
  | conn hj hs _ hle =>
    rw [connId_putConn, conns_putConn, List.length_set]
    exact ⟨hle, .inr ⟨fun _ _ h => (by cases h), rfl⟩⟩

/-- What is read is what the events of the connections say. -/
theorem IdleStep.readBy_eq (hs : IdleStep a e a' o) (i : Nat) : readBy i o = e.reads i := by
  cases hs with
  | session => exact (outputs_session _ _).2.2.1 i
  | accept => rfl
  | @conn j e c c' o hj hs =>
    rw [readBy_conn, TCPServerConnection.reads_of_step hs]
    cases e <;> simp [Event.reads, TCPServerConnection.Event.reads]

theorem Hosting.step (hp : Hosting token a os cs) (he : e.Reliable) (hs : IdleStep a e a' o) :
    ∃ cs', Hosting token a' (os ++ o) (cs ++ cs') := by
  cases hs with
  | @session i e s s' o hi hstep =>
    obtain ⟨cmd, ts, hss, htok, hcan, hsaid, hlisten⟩ := hp.session
    rw [hss] at hi
    obtain ⟨rfl, rfl⟩ := getElem?_singleton_eq_some hi
    obtain ⟨e', ts', rfl, hstep', hne⟩ := Session.tcpServer_of_step hstep he
    obtain ⟨hsaid', hcan', hlisten'⟩ := hsaid.step hcan hne hstep'
    obtain ⟨hconn, hsent, hread, hmsgs⟩ := outputs_session cmd.token o
    have hsame (j : Nat) : sentBy j (os ++ o.map (.session cmd.token)) = sentBy j os ∧
        readBy j (os ++ o.map (.session cmd.token)) = readBy j os := by
      rw [sentBy_append, hsent, readBy_append, hread, List.append_nil, List.append_nil]
      exact ⟨rfl, rfl⟩
    have htok' := (TcpServer.token_of_step hstep').trans htok
    refine ⟨messages o, ?_, ?_, ⟨cmd, ts', ?_, htok', hcan', hsaid', fun hne => ?_⟩, ?_,
      fun j c hc => ?_, fun j hj => ?_⟩
    · rw [incoming_putSession, hp.idle]
    · rw [resolving_putSession, hp.resolving]
    · rw [sessions_putSession, hss]
      rfl
    · exact (hlisten' (hlisten (by rwa [conns_putSession] at hne))).1
    · rw [sentMessages_append, hmsgs, connMessages_append, hconn, List.append_nil, hp.said]
      -- a connection has been accepted only where the answer is out
      by_cases hnil : a.conns = []
      · rw [hp.connMessages_eq_nil hnil, List.map_nil, List.append_nil, List.append_nil]
      · rw [(hlisten' (hlisten hnil)).2, List.append_nil, List.append_nil]
    · rw [conns_putSession] at hc
      exact (hp.serves j c hc).congr (hsame j)
    · rw [conns_putSession] at hj
      rw [(hsame j).1, (hsame j).2]
      exact hp.unused j hj
  | @accept i cmd' t hi hl peername =>
    obtain ⟨cmd, ts, hss, htok, hcan, hsaid, hlisten⟩ := hp.session
    rw [hss] at hi
    obtain ⟨rfl, heq⟩ := getElem?_singleton_eq_some hi
    cases heq
    refine ⟨[], ?_⟩
    rw [List.append_nil, List.append_nil]
    refine ⟨hp.idle, hp.resolving, ⟨_, _, hss, htok, hcan, hsaid, fun _ => hl⟩, hp.said, fun j c hc => ?_,
      fun j hj => ?_⟩
    · rcases getElem?_snoc hc with hc | ⟨rfl, rfl⟩
      · exact hp.serves j c hc
      · obtain ⟨hsent, hread⟩ := hp.unused _ (List.getElem?_eq_none le_rfl)
        refine ⟨htok, he, ?_, by simp [hsent]⟩
        rw [hsent, hread]
        exact .accepted rfl rfl
    · refine hp.unused j (List.getElem?_eq_none ?_)
      have := List.getElem?_eq_none_iff.1 hj
      rw [List.length_append] at this
      omega
  | @conn j e c c' o hj hstep connId =>
    refine ⟨[], ?_⟩
    rw [List.append_nil]
    refine hp.conn hj ?_ ?_ ?_ hstep connId
    · rintro rfl
      exact absurd he (by simp [Event.Reliable, Event.isSendFailed])
    · rintro rfl
      exact he
    · rintro data rfl
      exact he

end Hosting

/-! ### From the CONNECT on -/

/-- The agent has got the CONNECT `cmd`, or nothing yet. -/
inductive Hosts (full : Bool) (info : WSNGetInfoReply) (cmd : WSNConnect) (l : Link) (os : List Output) : Prop
  | fresh (ha : l.agent = init full info) (hup : ∀ b ∈ l.up, l.up = [b] ∧ (CMD.CONNECT cmd).toBytes = .ok b)
    (hsent : sentMessages os = []) (hos : ∀ j, sentBy j os = [] ∧ readBy j os = [])
  | hosting {cs : List CMD} (h : Hosting cmd.token l.agent os cs) (hup : l.up = [])

section Hosts
variable {full : Bool} {info : WSNGetInfoReply} {cmd : WSNConnect} {l l' : Link} {os o : List Output} {e : Event}

theorem Hosts.congr (hp : Hosts full info cmd l os) (ha : l'.agent = l.agent) (hup : l'.up = l.up) :
    Hosts full info cmd l' os := by
  cases hp with
  | fresh h hfs hsent hos => exact .fresh (ha.trans h) (by rwa [hup]) hsent hos
  | hosting h hnil => exact .hosting (by rwa [ha]) (hup.trans hnil)

/-- The CONNECT of a TCP server makes its session. -/
theorem hosting_create (full : Bool) {c : WSNConnect} (htok : c.token = cmd.token) (hprot : c.protocol = "TCP")
    (hbind : c.bind = true) : ∃ ts, Session.create full c = ⟨c, .tcpServer ts⟩ ∧ ts.token = cmd.token ∧
      ts.cancelled = false ∧ ts.Said [] := by
  unfold Session.create
  by_cases htype : c.bindtype = 1
  · rw [show c.kind = .tcpServer by simp [WSNConnect.kind, hbind, hprot, htype]]
    exact ⟨_, rfl, htok, rfl, .nothing (.inl rfl) rfl⟩
  · rw [show c.kind = .tcpServerOther by simp [WSNConnect.kind, hbind, hprot, htype]]
    exact ⟨_, rfl, htok, rfl, .nothing (.inl rfl) rfl⟩

/-- The first step of all receives the CONNECT, which may not be decoded. -/
theorem step_of_fresh (ht : cmd.token.length = 16) (hprot : cmd.protocol = "TCP") (hbind : cmd.bind = true)
    (ha : l.agent = init full info) (hfs : ∀ b ∈ l.up, l.up = [b] ∧ (CMD.CONNECT cmd).toBytes = .ok b)
    (hs : l.step e = some (l', o)) : (∃ data f, e = .recv data f) ∧ l'.up = [] ∧ sentMessages o = [] ∧
      (∀ j, sentBy j o = [] ∧ readBy j o = []) ∧ (l'.agent = init full info ∨ ∃ c ts,
        l'.agent = { init full info with sessions := [⟨c, .tcpServer ts⟩] } ∧ ts.token = cmd.token ∧
          ts.cancelled = false ∧ ts.Said []) := by
  obtain ⟨hstep, -, hup⟩ := Link.step_eq_some hs
  rw [ha] at hstep
  rcases hup with ⟨data, f, rfl, hup⟩ | ⟨hne, hup⟩
  · obtain ⟨hfs, hb⟩ := hfs data (by rw [hup]; exact List.mem_cons_self)
    obtain ⟨-, hnil⟩ := List.cons.inj (hup.symm.trans hfs)
    refine ⟨⟨data, f, rfl⟩, hnil, ?_⟩
    simp only [Agent.step, init, if_true] at hstep
    split at hstep
    · rename_i c hc
      obtain ⟨c, rfl, htok, hprot', hbind'⟩ := CMD.fromBytes_of_toBytes_CONNECT hb ht (by rw [hprot]; decide) hc
      obtain ⟨ts, hcreate, hts⟩ := hosting_create full htok (hprot'.trans hprot) (hbind'.trans hbind)
      obtain ⟨hagent, rfl⟩ := Prod.mk.inj (Option.some.inj hstep)
      refine ⟨rfl, fun j => ⟨rfl, rfl⟩, .inr ⟨c, ts, ?_, hts⟩⟩
      rw [← hagent, ← hcreate]
      rfl
    · obtain ⟨hagent, rfl⟩ := Prod.mk.inj (Option.some.inj hstep)
      exact ⟨rfl, fun j => ⟨rfl, rfl⟩, .inl hagent.symm⟩
  · cases e with
    | recv data f => exact absurd rfl (hne data f)
    | conn j e => cases e <;> simp [Agent.step, init] at hstep
    | _ => simp [Agent.step, init, stepIncoming] at hstep

/-- An agent without connections has sent no message of one. -/
theorem Hosts.connMessages_eq_nil (hp : Hosts full info cmd l os) (h : l.agent.conns = []) : connMessages os = [] := by
  cases hp with
  | hosting hp => exact hp.connMessages_eq_nil h
  | fresh _ _ _ hos =>
    refine List.eq_nil_iff_forall_not_mem.2 fun m hm => ?_
    obtain ⟨j, hj⟩ := mem_connMessages.1 hm
    rw [(hos j).1] at hj
    cases hj

/-- A connection that has sent something has started. -/
theorem Hosts.serves {j : Nat} {m : WSNServerSocketData} (hp : Hosts full info cmd l os) (hm : m ∈ sentBy j os) :
    ∃ c, l.agent.conns[j]? = some c ∧ c.run ≠ .accepted ∧ m.connectiontoken = c.connectiontoken := by
  cases hp with
  | fresh _ _ _ hos =>
    rw [(hos j).1] at hm
    cases hm
  | hosting hp =>
    cases hc : l.agent.conns[j]? with
    | none =>
      rw [(hp.unused j hc).1] at hm
      cases hm
    | some c =>
      have hserves := hp.serves j c hc
      refine ⟨c, rfl, fun hrun => ?_, (hserves.messages m hm).2.1⟩
      rw [List.map_eq_nil_iff.1 (hserves.line.nil_of_accepted hrun)] at hm
      cases hm

theorem Hosts.line {j : Nat} {c : TCPServerConnection} (hp : Hosts full info cmd l os)
    (hc : l.agent.conns[j]? = some c) : c.Line (readBy j os) ((sentBy j os).map (·.data)) := by
  cases hp with
  | fresh ha =>
    rw [ha] at hc
    cases hc
  | hosting hp => exact (hp.serves j c hc).line

variable (ht : cmd.token.length = 16) (hprot : cmd.protocol = "TCP") (hbind : cmd.bind = true)

include ht hprot hbind

theorem Hosts.step (hp : Hosts full info cmd l os) (he : e.Reliable) (hs : l.step e = some (l', o)) :
    Hosts full info cmd l' (os ++ o) := by
  cases hp with
  | hosting h hnil =>
    obtain ⟨ha, -, ⟨data, f, -, hup⟩ | ⟨hne, hup⟩⟩ := Link.step_eq_some hs
    · rw [hnil] at hup
      cases hup
    · obtain ⟨cs', h'⟩ := h.step he (idleStep_of_step h.idle h.resolving hne ha)
      exact .hosting h' (hup.trans hnil)
  | fresh hinit hfs hsent hos =>
    obtain ⟨-, hnil, hsent', hos', hagent⟩ := step_of_fresh ht hprot hbind hinit hfs hs
    have hnone : ∀ j, sentBy j (os ++ o) = [] ∧ readBy j (os ++ o) = [] := fun j => by
      rw [sentBy_append, readBy_append, (hos j).1, (hos j).2, (hos' j).1, (hos' j).2]
      exact ⟨rfl, rfl⟩
    have hsilent : sentMessages (os ++ o) = [] := by rw [sentMessages_append, hsent, hsent', List.append_nil]
    rcases hagent with hagent | ⟨c, ts, hagent, htok, hcan, hsaid⟩
    · exact .fresh hagent (by simp [hnil]) hsilent hnone
    · suffices hhosting : Hosting cmd.token l'.agent (os ++ o) [] from .hosting hhosting hnil
      rw [hagent]
      refine ⟨rfl, rfl, ⟨c, ts, rfl, htok, hcan, hsaid, fun hne => absurd rfl hne⟩, ?_, fun j d hj => ?_,
        fun j _ => hnone j⟩
      · have hconn : connMessages (os ++ o) = [] := by
          refine List.eq_nil_iff_forall_not_mem.2 fun m hm => ?_
          obtain ⟨j, hj⟩ := mem_connMessages.1 hm
          rw [(hnone j).1] at hj
          cases hj
        rw [hsilent, hconn]
        rfl
      · cases hj

/-- A step keeps the connections, or `accept` adds one, and what is read is what the event says. -/
theorem Hosts.frame (hp : Hosts full info cmd l os) (hs : l.step e = some (l', o)) :
    (l.agent.connId ≤ l'.agent.connId ∧
      ((∃ i peername c, e = .accept i peername ∧ l'.agent.conns = l.agent.conns ++ [c]) ∨
        (∀ i peername, e ≠ .accept i peername) ∧ l'.agent.conns.length = l.agent.conns.length)) ∧
      ∀ j, readBy j o = e.reads j := by
  cases hp with
  | hosting h hnil =>
    obtain ⟨ha, -, ⟨data, f, -, hup⟩ | ⟨hne, hup⟩⟩ := Link.step_eq_some hs
    · rw [hnil] at hup
      cases hup
    · have hidle := idleStep_of_step h.idle h.resolving hne ha
      exact ⟨hidle.conns, hidle.readBy_eq⟩
  | fresh hinit hfs hsent hos =>
    obtain ⟨⟨data, f, rfl⟩, -, -, hos', hagent⟩ := step_of_fresh ht hprot hbind hinit hfs hs
    refine ⟨?_, fun j => (hos' j).2⟩
    rw [hinit]
    rcases hagent with hagent | ⟨c, ts, hagent, -⟩ <;> rw [hagent] <;>
      exact ⟨le_rfl, .inr ⟨fun _ _ h => (by cases h), rfl⟩⟩

end Hosts

/-! ### Connection tokens -/

theorem length_connectionId {n : Nat} (h : n < 10 ^ 16) : (connectionId n).length = 16 := by
  have hlen : (Nat.toDigits 10 n).length ≤ 16 := (Nat.length_toDigits_le_iff (by decide) (by decide)).2 h
  have hsize : ∀ c ∈ Nat.toDigits 10 n ++ List.replicate (16 - (Nat.toDigits 10 n).length) 'L', c.utf8Size = 1 := by
    intro c hc
    rcases List.mem_append.1 hc with hc | hc
    · have hdigit := isDigit_iff.1 (toDigits_isDigit hc)
      exact (utf8Size_cases c).2.2 (by omega)
    · rw [List.eq_of_mem_replicate hc]
      decide
  rw [connectionId, length_utf8Encode_ofList, List.map_congr_left hsize]
  simp only [List.map_const', List.sum_replicate, List.length_append, List.length_replicate, smul_eq_mul]
  omega

theorem connId_le_of_step {a a' : Agent} {e : Event} {o : List Output} (h : a.step e = some (a', o)) :
    a.connId ≤ a'.connId := by
  refine preserved (P := fun a' => a.connId ≤ a'.connId) (fun _ _ _ hle => ?_) (fun hact hle => ?_) h le_rfl
  · rwa [connId_putSession]
  · cases hact <;> simp only [connId_putConn] <;> omega

end Agent

/-! ### A new connection -/

/-- A step of the agent that receives nothing. -/
theorem Link.step_of_agent {l : Link} {e : Agent.Event} {a' : Agent} {o : List Agent.Output}
    (he : ∀ data f, e ≠ .recv data f) (h : l.agent.step e = some (a', o)) :
    l.step e = some (⟨a', l.up, l.down ++ frames (Agent.sentMessages o)⟩, o) := by
  cases e with
  | recv data f => exact absurd rfl (he data f)
  | _ => simp only [Link.step, h, Option.map_some]

theorem Link.step_accept {l : Link} {c : WSNConnect} {ts : TcpServer} (hss : l.agent.sessions = [⟨c, .tcpServer ts⟩])
    (hl : ts.listening = true) (peername : Peername) : ∃ l', l.step (.accept 0 peername) = some (l', []) ∧
      l'.down = l.down ∧ l'.agent.sessions = l.agent.sessions ∧ l'.agent.connId = l.agent.connId ∧
      l'.agent.conns = l.agent.conns ++ [{ token := ts.token, peername }] := by
  have haccept : l.agent.step (.accept 0 peername) =
      some ({ l.agent with conns := l.agent.conns ++ [{ token := ts.token, peername }] }, []) := by
    simp [Agent.step, hss, hl]
  exact ⟨_, step_of_agent (fun _ _ h => (by cases h)) haccept, List.append_nil _, rfl, rfl, rfl⟩

theorem Link.step_start {l : Link} {j : Nat} {c : TCPServerConnection} {host : String} {port : Int}
    (hc : l.agent.conns[j]? = some c) (hrun : c.run = .accepted) (hpeer : c.peername = .pair host port) :
    ∃ l' o, l.step (.conn j (.start (connectionId l.agent.connId))) = some (l', o) ∧
      l'.down = l.down ++ frames [.SDSRV ⟨c.token, connectionId l.agent.connId, [], host, port⟩] ∧
      l'.agent.sessions = l.agent.sessions ∧ l'.agent.connId = l.agent.connId + 1 ∧
      l'.agent.conns =
        l.agent.conns.set j { c with connectiontoken := connectionId l.agent.connId, run := .opening } := by
  have hstep : c.step (.start (connectionId l.agent.connId)) =
      some ({ c with connectiontoken := connectionId l.agent.connId, run := .opening },
        [.register, .sent ⟨c.token, connectionId l.agent.connId, [], host, port⟩]) := by
    simp [TCPServerConnection.step, hrun, hpeer]
  have hstart : l.agent.step (.conn j (.start (connectionId l.agent.connId))) =
      some ({ l.agent with connId := l.agent.connId + 1 }.putConn j
        { c with connectiontoken := connectionId l.agent.connId, run := .opening }
        [.register, .sent ⟨c.token, connectionId l.agent.connId, [], host, port⟩]) := by
    simp only [Agent.step, hc, if_true, hstep, Option.map_some]
  refine ⟨_, _, step_of_agent (fun _ _ h => (by cases h)) hstart, rfl, ?_, ?_, ?_⟩
  · exact Agent.sessions_putConn
  · exact Agent.connId_putConn
  · exact Agent.conns_putConn

end Wsnet
