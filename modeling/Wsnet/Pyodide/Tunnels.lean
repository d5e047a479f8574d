import Wsnet.Agent.TcpOnly
import Wsnet.Pyodide.Interface
import Wsnet.Pyodide.Tunnel

/-!
# Tunnels that share a websocket

`Tunnels` is a page with its interface and connections, an agent, and an ordered websocket between them.
Of each token there is one `Tunnel` in it (`view`): what the histories and the state of the whole say of the
connection that has drawn the token.
-/

namespace Wsnet.Pyodide

structure Tunnels where
  page : WSNETWSInterface := {}
  link : Link

namespace Tunnels

/-- A page without connections, and an agent that has done nothing. -/
def start (full : Bool) (info : WSNGetInfoReply) : Tunnels := { link := { agent := Agent.init full info } }

inductive Event
  | page (e : WSNETWSInterface.Event)
  | agent (e : Agent.Event)

/-- The page gets the first frame that is on its way to it; all other steps are those of one of the two. -/
def step (s : Tunnels) : Event → Option (Tunnels × List Agent.Output)
  | .page (.onData data) =>
    match s.link.down with
    | b :: down => if data = b then some (⟨s.page.onData data, { s.link with down }⟩, []) else none
    | [] => none
  | .page e => (s.page.step e).map fun r => (⟨r.1, { s.link with up := s.link.up ++ r.2 }⟩, [])
  | .agent e => (s.link.step e).map fun r => (⟨s.page, r.1⟩, r.2)

/-! ### What is seen of a run -/

/-- The token that a connection draws, with the connection. -/
def Event.draw? : Event → Option (Bytes × Nat)
  | .page (.tcp j (.run token)) => some (token, j)
  | _ => none

def draws (es : List Event) : List (Bytes × Nat) := es.filterMap Event.draw?

/-- The data that the user of connection `j` has put into `out_q`. -/
def putData (j : Nat) (es : List Event) : Bytes :=
  (es.filterMap fun
    | .page (.tcp j' (.put data)) => if j' = j then data else none
    | _ => none).flatten

/-- The bytes that the agent has written to the socket of a token, and read from it. -/
def writtenTo (token : Bytes) (os : List Agent.Output) : Bytes :=
  (os.filterMap fun
    | .session t (.wrote data) => if t = token then some data else none
    | _ => none).flatten

def readFrom (token : Bytes) (os : List Agent.Output) : Bytes :=
  (os.filterMap fun
    | .session t (.read data) => if t = token then some data else none
    | _ => none).flatten

/-- The bytes that were put into `in_q`. -/
def inData (c : WSNetworkTCP) : Bytes :=
  (c.in_q.filterMap fun
    | .data b => some b
    | _ => none).flatten

/-- The websocket stays open once it is, no call of `transport.send` or of a writer raises, a read returns at
most what was asked for, and so does `os.urandom`. -/
def Event.Reliable : Event → Prop
  | .page .onClose | .page .onError | .page .terminate => False
  | .page (.tcp _ (.run token)) => token.length = 16
  | .page _ => True
  | .agent (.session _ (.tcpClient (.dataIn (.writeFailed _)))) => False
  | .agent (.session _ (.tcpClient (.main (.read data)))) => data.length ≤ 65536
  | .agent e => e.isSendFailed = false

/-- The data of a connection that the client has not sent. -/
def unsent (c : WSNetworkTCP) : Bytes :=
  (match c.outPc with | .opening data => data | _ => []) ++ (c.out_q.filterMap id).flatten

/-- The TCP client sessions with the token. -/
def sessionsOf (token : Bytes) (ss : List Session) : List TcpClient :=
  ss.filterMap fun s =>
    match s.task with
    | .tcpClient tc => if s.cmd.token = token then some tc else none
    | _ => none

/-- The messages with the token. -/
def ofToken (token : Bytes) (cs : List CMD) : List CMD := cs.filter fun c => c.token = token

/-! ### The tunnel of a token -/

/-- The answer was a CONTINUE, or `run` has gone on as if it was. -/
def answered (c : WSNetworkTCP) : Bool :=
  c.last_error = none ∧ (c.connection_established = true ∨ c.runPc = .waiting true) ∨ c.outPc ≠ .none

/-- The client's end of the connection `c`, that has drawn `token`. -/
def clientOf (put : Bytes) (registered : Bool) (token : Bytes) (c : WSNetworkTCP) : Tunnel.Client where
  put := put
  left := unsent c
  got := inData c
  registered := registered
  asking := c.runPc = .registering token
  continued := answered c

/-- The connection that has drawn the token. -/
def owner (token : Bytes) (es : List Event) : Option Nat := (draws es).lookup token

def clientView (token : Bytes) (es : List Event) (page : WSNETWSInterface) : Option Tunnel.Client :=
  (owner token es).bind fun j =>
    page.tcps[j]?.map (clientOf (putData j es) (page.dispatch_table.contains token) token)

def view (token : Bytes) (es : List Event) (s : Tunnels) (os : List Agent.Output) : Tunnel where
  client := clientView token es s.page
  okTask := decide (token ∈ s.page.oks)
  up := ofToken token (decoded s.link.up)
  sessions := sessionsOf token s.link.agent.sessions
  written := writtenTo token os
  read := readFrom token os
  down := ofToken token (decoded s.link.down)

section Frames
variable {token : Bytes} {c m : CMD}

theorem mem_decoded_trySend (h : m ∈ decoded (trySend c)) : ∃ b, c.toBytes = .ok b ∧ CMD.fromBytes b = .ok m := by
  obtain ⟨b, hb, hm⟩ := mem_decoded.1 h
  exact ⟨b, mem_trySend.1 hb, hm⟩

/-- At most one command arrives, which asks for a TCP client session of the token. -/
theorem decoded_connect (ht : token.length = 16) (t : WSNetworkTCP) : decoded (trySend (t.connectCmd token)) = [] ∨
    ∃ m, decoded (trySend (t.connectCmd token)) = [m] ∧ m.IsConnect = true ∧ m.IsTcp ∧ m.token = token := by
  unfold trySend
  split
  · rename_i b hb
    cases hm : CMD.fromBytes b with
    | error e => exact .inl (decoded_cons_error hm)
    | ok m =>
      refine .inr ⟨m, decoded_cons_ok hm, ?_⟩
      obtain ⟨c, rfl, htok, hprot, hbind⟩ :=
        CMD.fromBytes_of_toBytes_CONNECT hb ht (show (utf8Encode "TCP").length = 3 by decide) hm
      refine ⟨rfl, ?_, htok⟩
      simp [CMD.IsTcp, WSNConnect.kind, hprot, hbind]
  · exact .inl rfl

theorem ok_of_mem_decoded (ht : token.length = 16) (h : m ∈ decoded (trySend (.OK { token }))) :
    ∃ c, m = .OK c ∧ c.token = token := by
  obtain ⟨b, hb, hm⟩ := mem_decoded_trySend h
  obtain ⟨c, rfl⟩ := CMD.eq_OK_of_type (CMD.type_of_fromBytes hb hm)
  exact ⟨c, rfl, CMD.token_of_frame hb ht hm⟩

/-- Frames that are read as they were written arrive one by one. -/
theorem decoded_frames {mk : Bytes → CMD} {ps : List Bytes}
    (h : ∀ p ∈ ps, ∃ b, (mk p).toBytes = .ok b ∧ CMD.fromBytes b = .ok (mk p)) :
    decoded (frames mk ps).1 = ps.map mk := by
  induction ps with
  | nil => rfl
  | cons p ps ih =>
    obtain ⟨b, hb, hdec⟩ := h p List.mem_cons_self
    simp only [frames, hb, List.map_cons]
    rw [decoded_cons_ok hdec, ih fun q hq => h q (List.mem_cons_of_mem p hq)]

theorem written_SD (ht : token.length = 16) {p : Bytes} (hfit : 22 + p.length < 256 ^ 4) :
    ∃ b, (CMD.SD ⟨token, p⟩).toBytes = .ok b ∧ CMD.fromBytes b = .ok (.SD ⟨token, p⟩) := by
  obtain ⟨b, hb⟩ := (carries_SD ht).written p hfit
  refine ⟨b, hb, ?_⟩
  rw [CMD.fromBytes, CMD.fromBuffer_toBytes_SD ht hb]
  rfl

theorem fits_of_mem_pieces {data p : Bytes} (hp : p ∈ pieces data) : 22 + p.length < 256 ^ 4 := by
  have hmax : maxMessage + maxMessage < 256 ^ 4 := by decide
  have hchunk : chunkSize + 22 ≤ maxMessage := by decide
  rcases length_of_mem_pieces hp with ⟨rfl, hlt⟩ | ⟨hle, -⟩ <;> omega

theorem sdData_map (ps : List Bytes) : sdData (ps.map fun chunk => .SD ⟨token, chunk⟩) = ps.flatten := by
  induction ps with
  | nil => rfl
  | cons p ps ih => simp [sdData_cons, ih, CMD.sd?]

/-- What `sendSocketData` sends arrives in pieces. -/
theorem decoded_sendSocketData (ht : token.length = 16) (data : Bytes) :
    (∀ m ∈ decoded (WSNETWSInterface.sendSocketData token data).1, ∃ d, m = .SD ⟨token, d⟩) ∧
      sdData (decoded (WSNETWSInterface.sendSocketData token data).1) = data := by
  unfold WSNETWSInterface.sendSocketData
  split
  · rename_i hnil
    subst hnil
    exact ⟨fun m hm => absurd hm List.not_mem_nil, rfl⟩
  · rw [decoded_frames fun p hp => written_SD ht (fits_of_mem_pieces hp), sdData_map, flatten_pieces]
    refine ⟨fun m hm => ?_, rfl⟩
    obtain ⟨d, -, rfl⟩ := List.mem_map.1 hm
    exact ⟨d, rfl⟩

end Frames

section Histories
variable {token : Bytes} {es : List Event} {e : Event} {j : Nat} {os os' : List Agent.Output}

theorem putData_append (es' : List Event) : putData j (es ++ es') = putData j es ++ putData j es' := by simp [putData]

theorem writtenTo_append :
    writtenTo token (os ++ os') = writtenTo token os ++ writtenTo token os' := by simp [writtenTo]

theorem readFrom_append : readFrom token (os ++ os') = readFrom token os ++ readFrom token os' := by simp [readFrom]

theorem owner_of_draw (h : e.draw? = none) : owner token (es ++ [e]) = owner token es := by
  simp [owner, draws, h]

theorem owner_run (token' : Bytes) :
    owner token (es ++ [.page (.tcp j (.run token'))]) = (owner token es).or
      (if token = token' then some j else none) := by
  have hd : draws (es ++ [.page (.tcp j (.run token'))]) = draws es ++ [(token', j)] := by
    simp [draws, Event.draw?]
  rw [owner, owner, hd, List.lookup_append]
  by_cases h : token = token'
  · simp [h]
  · simp [h, List.lookup_cons, beq_false_of_ne h]

theorem owner_tcp {e : WSNETWSInterface.TcpEvent} (he : ∀ t, e ≠ .run t) :
    owner token (es ++ [.page (.tcp j e)]) = owner token es := by
  refine owner_of_draw ?_
  cases e with
  | run t => exact absurd rfl (he t)
  | _ => rfl

theorem putData_other {k : Nat} (hk : k ≠ j) (e : WSNETWSInterface.TcpEvent) :
    putData k (es ++ [.page (.tcp j e)]) = putData k es := by
  rw [putData_append]
  cases e <;> simp [putData, hk.symm]

theorem putData_tcp {k : Nat} {e : WSNETWSInterface.TcpEvent} (he : ∀ data, e ≠ .put data) :
    putData k (es ++ [.page (.tcp j e)]) = putData k es := by
  rw [putData_append]
  cases e with
  | put data => exact absurd rfl (he data)
  | _ => simp [putData]

theorem owner_eq_none_iff : owner token es = none ↔ token ∉ (draws es).map Prod.fst := by
  rw [owner, List.lookup_eq_none_iff]
  constructor
  · intro h hmem
    obtain ⟨x, hx, rfl⟩ := List.mem_map.1 hmem
    have := h x hx
    rw [bne_self_eq_false] at this
    cases this
  · intro h x hx
    rw [bne_iff_ne]
    rintro rfl
    exact h (List.mem_map_of_mem hx)

end Histories

end Tunnels

end Wsnet.Pyodide
