import Wsnet.Agent.Delivers
import Wsnet.Pyodide.HandsOver

/-!
# What the handlers of a TCP server write

A `Dialogue` is a TCP server with its peers in which the handlers call their writers too. Each handler has one
connection of the agent, and the peer of this connection gets what the handler writes and nothing else, in order:
always the first of it, and all of it once nothing is on its way and the connection is still open
(`peers_get_writes`). The two sides agree on a connection by its token, which the agent hands out and the
client names only in reply (`Book`, `Told`).
-/

namespace Wsnet.Pyodide

/-- Frames that arrive as messages for one connection, with the bytes `data` between them. -/
structure Carried (token connectiontoken : Bytes) (fs : List Bytes) (data : Bytes) : Prop where
  named : ∀ c ∈ decoded fs, ∃ m, c = .SDSRV m ∧ m.token = token ∧ m.connectiontoken = connectiontoken
  data : (dataFor token connectiontoken (decoded fs)).flatten = data

namespace Carried
variable {token connectiontoken data data' : Bytes} {fs fs' : List Bytes}

theorem nil : Carried token connectiontoken [] [] := ⟨fun _ hc => absurd hc List.not_mem_nil, rfl⟩

theorem append (h : Carried token connectiontoken fs data) (h' : Carried token connectiontoken fs' data') :
    Carried token connectiontoken (fs ++ fs') (data ++ data') where
  named c hc := by
    rw [decoded_append] at hc
    exact (List.mem_append.1 hc).elim (h.named c) (h'.named c)
  data := by rw [decoded_append, dataFor_append, List.flatten_append, h.data, h'.data]

theorem frame {b : Bytes} (ht : token.length = 16) (hct : connectiontoken.length = 16)
    (hb : (CMD.SDSRV { token, connectiontoken, data }).toBytes = .ok b) : Carried token connectiontoken [b] data := by
  obtain ⟨ip, hip⟩ := CMD.fromBytes_of_toBytes_SDSRV hb ht hct
  have hdecoded : decoded [b] = [.SDSRV { token, connectiontoken, data, clientip := ip, clientport := 0 }] :=
    decoded_cons_ok hip
  constructor
  · intro c hc
    rw [hdecoded, List.mem_singleton] at hc
    exact ⟨_, hc, rfl, rfl⟩
  · have hdata : dataFor token connectiontoken (decoded [b]) = [data] := hdecoded ▸ dataFor_SDSRV rfl rfl
    rw [hdata, List.flatten_singleton]

end Carried

/-! ### The writer -/

namespace WSNetworkServerTCPWriter
open WSNetworkTCPServer (andThen)

inductive Call
  | write (data : Bytes)
  | writelines (data : List Bytes)
  | close
  deriving DecidableEq, Repr

/-- The bytes that a call is given. -/
def Call.bytes : Call → Bytes
  | .write data => data
  | .writelines data => data.flatten
  | .close => []

/-- The loop of `writelines`. -/
def writeAll (token connectiontoken : Bytes) : List Bytes → List Bytes × Option PyErr
  | [] => ([], none)
  | entry :: rest => andThen (write token connectiontoken entry) (writeAll token connectiontoken rest)

/-- What a call sends, and what it raises; only `writelines` looks at `closed_event`. -/
def call (token connectiontoken : Bytes) (closed_event : Bool) : Call → List Bytes × Option PyErr
  | .write data => write token connectiontoken data
  | .writelines data =>
    if closed_event then ([], some (.exception "Connection is closed!")) else writeAll token connectiontoken data
  | .close => write token connectiontoken []

variable {token connectiontoken : Bytes}

theorem carried_frames {mk : Bytes → CMD} {header : Nat} (h : Carries mk header)
    (hmk : ∀ {d b : Bytes}, (mk d).toBytes = .ok b → Carried token connectiontoken [b] d) {ps : List Bytes}
    (hfit : ∀ p ∈ ps, header + p.length < 256 ^ 4) :
    (frames mk ps).2 = none ∧ Carried token connectiontoken (frames mk ps).1 ps.flatten := by
  induction ps with
  | nil => exact ⟨rfl, .nil⟩
  | cons p ps ih =>
    obtain ⟨b, hb⟩ := h.written p (hfit p List.mem_cons_self)
    obtain ⟨hnone, hrest⟩ := ih fun q hq => hfit q (List.mem_cons_of_mem _ hq)
    simp only [frames, hb, List.flatten_cons]
    exact ⟨hnone, (hmk hb).append hrest⟩

theorem carried_write (ht : token.length = 16) (hct : connectiontoken.length = 16) (data : Bytes) :
    (write token connectiontoken data).2 = none ∧
      Carried token connectiontoken (write token connectiontoken data).1 data := by
  have hcarries : Carries (fun chunk => .SDSRV { token, connectiontoken, data := chunk }) 45 :=
    carries_SDSRV ht hct ⟨le_refl 0, by omega⟩
  have hfit : ∀ p ∈ pieces data, 45 + p.length < 256 ^ 4 := by
    intro p hp
    rcases length_of_mem_pieces hp with ⟨rfl, hlt⟩ | ⟨hle, -⟩
    · simp only [maxMessage] at hlt
      omega
    · simp only [chunkSize] at hle
      omega
  have hframes := carried_frames hcarries (fun hb => Carried.frame ht hct hb) hfit
  rwa [flatten_pieces] at hframes

theorem carried_writeAll (ht : token.length = 16) (hct : connectiontoken.length = 16) (data : List Bytes) :
    (writeAll token connectiontoken data).2 = none ∧
      Carried token connectiontoken (writeAll token connectiontoken data).1 data.flatten := by
  induction data with
  | nil => exact ⟨rfl, .nil⟩
  | cons entry rest ih =>
    obtain ⟨hnone, hwrite⟩ := carried_write ht hct entry
    rw [writeAll, andThen, hnone]
    exact ⟨ih.1, hwrite.append ih.2⟩

/-- The bytes that a call has handed over. -/
def handedOver (c : Call) (raised : Option PyErr) : Bytes := if raised.isSome then [] else c.bytes

/-- A call hands over all it is given, or it raises and hands over nothing. -/
theorem carried_call (ht : token.length = 16) (hct : connectiontoken.length = 16) (closed_event : Bool) (c : Call) :
    Carried token connectiontoken (call token connectiontoken closed_event c).1
      (handedOver c (call token connectiontoken closed_event c).2) := by
  cases c with
  | write data =>
    obtain ⟨hnone, hwrite⟩ := carried_write ht hct data
    rw [call, handedOver, hnone]
    exact hwrite
  | close =>
    obtain ⟨hnone, hwrite⟩ := carried_write ht hct []
    rw [call, handedOver, hnone]
    exact hwrite
  | writelines data =>
    rw [call]
    split
    · exact .nil
    · obtain ⟨hnone, hall⟩ := carried_writeAll ht hct data
      rw [handedOver, hnone]
      exact hall

end WSNetworkServerTCPWriter

/-! ### The client -/

namespace WSNetworkTCPServer

/-- The connection tokens of the handlers. -/
def names (s : WSNetworkTCPServer) : List Bytes := s.handlers.map (·.connectiontoken)

/-- The server goes on with the connections it has. -/
structure Stays (s s' : WSNetworkTCPServer) : Prop where
  token : s'.token = s.token
  connections : s'.connections = s.connections
  names : s'.names = s.names
  pc : ∀ cmd, s'.pc = .opening cmd → s.pc = .opening cmd

/-- Frames that end the connections `keys`, or the server. -/
def Ends (token : Bytes) (keys fs : List Bytes) : Prop :=
  ∀ b ∈ fs, (∃ ct ∈ keys, (CMD.SDSRV { token, connectiontoken := ct, data := [] }).toBytes = .ok b) ∨
    (CMD.OK { token }).toBytes = .ok b

/-- What a step of the client does to its connections, and the frames it sends. -/
inductive Registers (s : WSNetworkTCPServer) (e : Event) : WSNetworkTCPServer → List Bytes → Prop
  | stays {s' : WSNetworkTCPServer} {fs : List Bytes} (h : Stays s s') (hf : Ends s.token s.connections.keys fs) :
    Registers s e s' fs
  | opening {cmd : WSNServerSocketData} {data : Bytes} (he : e = .message data)
    (hc : CMD.fromBytes data = .ok (.SDSRV cmd)) (hnew : s.connections.contains cmd.connectiontoken = false) :
    Registers s e { s with pc := .opening cmd } []
  | opened {cmd : WSNServerSocketData} {s' : WSNetworkTCPServer} {fs : List Bytes} (he : e = .opened)
    (hpc : s.pc = .opening cmd) (h : Stays (s.handle_new_connection cmd) s') (hpc' : ∀ cmd, s'.pc ≠ .opening cmd)
    (hf : Ends s'.token s'.connections.keys fs) : Registers s e s' fs

section Client
variable {s s' s₁ : WSNetworkTCPServer} {e : Event} {o : List Output} {token : Bytes} {keys fs fs' : List Bytes}
  {x y : List Bytes × Option PyErr}

theorem Stays.refl : Stays s s := ⟨rfl, rfl, rfl, fun _ => id⟩

theorem Stays.trans (h : Stays s s₁) (h' : Stays s₁ s') : Stays s s' where
  token := h'.token.trans h.token
  connections := h'.connections.trans h.connections
  names := h'.names.trans h.names
  pc cmd hpc := h.pc cmd (h'.pc cmd hpc)

theorem Ends.nil : Ends token keys [] := fun _ hb => absurd hb List.not_mem_nil

theorem Ends.append (h : Ends token keys fs) (h' : Ends token keys fs') : Ends token keys (fs ++ fs') := fun b hb =>
  (List.mem_append.1 hb).elim (h b) (h' b)

theorem Ends.andThen (hx : Ends token keys x.1) (hy : Ends token keys y.1) : Ends token keys (andThen x y).1 := by
  unfold WSNetworkTCPServer.andThen
  split
  · exact hx
  · exact hx.append hy

theorem ends_write {ct : Bytes} (hct : ct ∈ keys) :
    Ends token keys (WSNetworkServerTCPWriter.write token ct []).1 := by
  intro b hb
  obtain ⟨p, hp, hpb⟩ := exists_of_mem_frames hb
  have hnil : p = [] := by
    rw [pieces, if_pos (show ([] : Bytes).length < maxMessage by decide)] at hp
    exact List.mem_singleton.1 hp
  exact .inl ⟨ct, hct, hnil ▸ hpb⟩

theorem ends_terminateWriters {ks : List Bytes} (hks : ks ⊆ keys) : Ends token keys (terminateWriters token ks).1 := by
  induction ks with
  | nil => exact .nil
  | cons ct ks ih =>
    rw [terminateWriters]
    have hwrite : Ends token keys (WSNetworkServerTCPWriter.write token ct []).1 := ends_write (hks List.mem_cons_self)
    exact (hwrite.andThen .nil).andThen (ih fun k hk => hks (List.mem_cons_of_mem _ hk))

theorem ends_closeWriters {ks : List Bytes} (hks : ks ⊆ keys) : Ends token keys (closeWriters token ks).1 := by
  induction ks with
  | nil => exact .nil
  | cons ct ks ih =>
    rw [closeWriters]
    exact (ends_write (hks List.mem_cons_self)).andThen (ih fun k hk => hks (List.mem_cons_of_mem _ hk))

theorem ends_ok : Ends token keys (trySend (.OK { token })) := fun _ hb => .inr (mem_trySend.1 hb)

@[simp] theorem sent_frames (fs : List Bytes) : sent (fs.map .frame) = fs := by
  rw [sent, List.filterMap_map]
  exact List.filterMap_some

@[simp] theorem sent_append (os os' : List Output) : sent (os ++ os') = sent os ++ sent os' := List.filterMap_append

@[simp] theorem sent_terminated (r : Except PyErr Unit) : sent [.terminated r] = [] := rfl

theorem names_modify {f : Handler → Handler} (hf : ∀ h, (f h).connectiontoken = h.connectiontoken) (hs : List Handler)
    (k : Nat) : (hs.modify k f).map (·.connectiontoken) = hs.map (·.connectiontoken) := by
  refine List.ext_getElem? fun i => ?_
  rw [List.getElem?_map, List.getElem?_map, List.getElem?_modify]
  by_cases hk : k = i
  · rcases hs[i]? with _ | h <;> simp [hk, hf]
  · rcases hs[i]? with _ | h <;> simp [hk]

theorem names_set {h h' : Handler} {hs : List Handler} {k : Nat} (hk : hs[k]? = some h)
    (hct : h'.connectiontoken = h.connectiontoken) :
    (hs.set k h').map (·.connectiontoken) = hs.map (·.connectiontoken) := by
  obtain ⟨hlt, rfl⟩ := List.getElem?_eq_some_iff.1 hk
  rw [List.map_set, hct, ← List.map_set, List.set_getElem_self]

theorem stays_putAll (s : WSNetworkTCPServer) (err : String) : Stays s (s.putAll err) := by
  refine ⟨rfl, rfl, ?_, fun _ => id⟩
  rw [names, putAll]
  generalize s.connections.values = ks
  show _ = s.handlers.map (·.connectiontoken)
  generalize s.handlers = hs
  induction ks generalizing hs with
  | nil => rfl
  | cons k ks ih => exact (ih _).trans (names_modify (f := (·.putErr err)) (fun _ => rfl) hs k)

/-- What a piece of code does that leaves the connections as they are. -/
structure Steady (s : WSNetworkTCPServer) (r : WSNetworkTCPServer × List Output) : Prop where
  stays : Stays s r.1
  sent : Ends s.token s.connections.keys (sent r.2)

theorem steady_nil (h : Stays s s') : Steady s (s', []) := ⟨h, .nil⟩

theorem steady_terminate (s : WSNetworkTCPServer) : Steady s s.terminate := by
  have hends : Ends s.token s.connections.keys (terminateWriters s.token s.connections.keys).1 :=
    ends_terminateWriters (List.Subset.refl _)
  unfold terminate
  split
  · exact ⟨⟨rfl, rfl, rfl, fun _ => id⟩, .nil⟩
  · rcases hw : terminateWriters s.token s.connections.keys with ⟨fs, _ | err⟩ <;> rw [hw] at hends
    · refine ⟨(stays_putAll s _).trans ⟨rfl, rfl, rfl, fun _ => id⟩, ?_⟩
      simpa using hends
    · exact ⟨.refl, by simpa using hends⟩

theorem steady_close (s : WSNetworkTCPServer) : Steady s s.close := by
  have hends : Ends s.token s.connections.keys (closeWriters s.token s.connections.keys).1 :=
    ends_closeWriters (List.Subset.refl _)
  unfold close
  rcases hw : closeWriters s.token s.connections.keys with ⟨fs, _ | err⟩ <;> rw [hw] at hends
  · refine ⟨(stays_putAll s _).trans ⟨rfl, rfl, rfl, fun _ => id⟩, ?_⟩
    simpa using hends.append ends_ok
  · exact ⟨.refl, by simpa using hends.append ends_ok⟩

theorem steady_finish (s : WSNetworkTCPServer) : Steady s s.finish :=
  ⟨(steady_terminate s).stays.trans ⟨rfl, rfl, rfl, fun _ h => by cases h⟩, (steady_terminate s).sent⟩

theorem steady_loop (s : WSNetworkTCPServer) : Steady s s.loop := by
  unfold loop
  split
  · exact steady_finish s
  · exact steady_nil ⟨rfl, rfl, rfl, fun _ h => by cases h⟩

theorem pc_loop (s : WSNetworkTCPServer) (cmd : WSNServerSocketData) : s.loop.1.pc ≠ .opening cmd := by
  unfold loop
  split <;> simp [finish]

theorem Steady.trans {r : WSNetworkTCPServer × List Output} (h : Stays s s₁) (hr : Steady s₁ r) : Steady s r where
  stays := h.trans hr.stays
  sent := h.token ▸ h.connections ▸ hr.sent

theorem stays_put (s : WSNetworkTCPServer) (cmd : WSNServerSocketData) : Stays s (s.put cmd) := by
  unfold put
  split
  · exact ⟨rfl, rfl, names_modify (f := (·.put cmd)) (fun _ => rfl) _ _, fun _ => id⟩
  · exact .refl

theorem Steady.registers {r : WSNetworkTCPServer × List Output} (h : Steady s r) (e : Event) :
    Registers s e r.1 (WSNetworkTCPServer.sent r.2) := .stays h.stays h.sent

theorem registers_of_step (hs : s.step e = some (s', o)) : Registers s e s' (sent o) := by
  cases e with
  | message data =>
    simp only [step] at hs
    split at hs
    · obtain ⟨rfl, rfl⟩ := Prod.ext_iff.1 (Option.some.inj hs)
      refine Steady.registers ?_ _
      unfold answer
      split
      · have hget : Stays s { s with pc := .getting } := ⟨rfl, rfl, rfl, fun _ h => by cases h⟩
        exact .trans hget (steady_loop _)
      · exact steady_nil ⟨rfl, rfl, rfl, fun _ h => by cases h⟩
    · split at hs
      · cases hs
      · obtain ⟨rfl, rfl⟩ := Prod.ext_iff.1 (Option.some.inj hs)
        unfold handle_in
        split
        · rename_i cmd hc
          unfold handle_new_msg
          split
          · exact (Steady.trans (stays_put s cmd) (steady_loop _)).registers _
          · rename_i hnew
            exact .opening rfl hc (Bool.eq_false_of_not_eq_true hnew)
        · exact (steady_finish s).registers _
        · exact (steady_finish s).registers _
        · exact (steady_loop s).registers _
        · exact (steady_finish s).registers _
    · cases hs
  | opened =>
    simp only [step] at hs
    split at hs
    · rename_i cmd hpc
      split at hs
      · cases hs
      · obtain ⟨rfl, rfl⟩ := Prod.ext_iff.1 (Option.some.inj hs)
        unfold WSNetworkTCPServer.opened
        split
        · have h := steady_loop (s.handle_new_connection cmd)
          exact .opened rfl hpc h.stays (pc_loop _) (h.stays.token ▸ h.stays.connections ▸ h.sent)
        · have h := Steady.trans (stays_put (s.handle_new_connection cmd) cmd) (steady_loop _)
          exact .opened rfl hpc h.stays (pc_loop _) (h.stays.token ▸ h.stays.connections ▸ h.sent)
    · cases hs
  | disconnect =>
    cases hs
    exact .stays ⟨rfl, rfl, rfl, fun _ => id⟩ .nil
  | terminate =>
    obtain ⟨rfl, rfl⟩ := Prod.ext_iff.1 (Option.some.inj hs)
    exact (steady_terminate s).registers _
  | close =>
    simp only [step] at hs
    split at hs
    · cases hs
    · obtain ⟨rfl, rfl⟩ := Prod.ext_iff.1 (Option.some.inj hs)
      exact (steady_close s).registers _
  | cancelled =>
    simp only [step] at hs
    split at hs
    · obtain ⟨rfl, rfl⟩ := Prod.ext_iff.1 (Option.some.inj hs)
      exact (steady_finish s).registers _
    · cases hs
  | reader k e =>
    simp only [step] at hs
    split at hs
    · rename_i h hk
      obtain ⟨r, hr, heq⟩ := Option.map_eq_some_iff.1 hs
      obtain ⟨rfl, rfl⟩ := Prod.ext_iff.1 heq
      obtain ⟨-, hcmd, -⟩ := Handler.step_eq_some (show h.step e = some (r.1, r.2) from hr)
      refine .stays ⟨rfl, rfl, ?_, fun _ => id⟩ (by rw [sent_reader]; exact .nil)
      exact names_set hk (congrArg (·.connectiontoken) hcmd)
    · cases hs

end Client

/-- The client knows the connections whose tokens are `names`, each by one queue, and all of them from the agent. -/
structure Book (Handed : Bytes → Prop) (s : WSNetworkTCPServer) : Prop where
  table : ∀ k ct, s.connections.get? ct = some k ↔ s.names[k]? = some ct
  handed : ∀ ct ∈ s.names, Handed ct
  opening : ∀ cmd, s.pc = .opening cmd → Handed cmd.connectiontoken ∧ cmd.connectiontoken ∉ s.names

namespace Book
variable {Handed Handed' : Bytes → Prop} {s s' : WSNetworkTCPServer} {e : Event} {fs : List Bytes}

theorem mono (h : Book Handed s) (hh : ∀ ct, Handed ct → Handed' ct) : Book Handed' s where
  table := h.table
  handed ct hct := hh ct (h.handed ct hct)
  opening cmd hpc := (h.opening cmd hpc).imp_left (hh _)

theorem mem_keys (h : Book Handed s) {ct : Bytes} : ct ∈ s.connections.keys ↔ ct ∈ s.names := by
  rw [Dict.mem_keys_iff, List.mem_iff_getElem?]
  exact exists_congr fun k => h.table k ct

theorem stays (h : Book Handed s) (hs : Stays s s') : Book Handed s' where
  table k ct := by
    rw [hs.connections, hs.names]
    exact h.table k ct
  handed ct hct := h.handed ct (hs.names ▸ hct)
  opening cmd hpc := by
    rw [hs.names]
    exact h.opening cmd (hs.pc cmd hpc)

/-- Two handlers have two connections. -/
theorem unique (h : Book Handed s) {k k' : Nat} {ct : Bytes} (hk : s.names[k]? = some ct) (hk' : s.names[k']? = some ct) :
    k = k' :=
  Option.some.inj (((h.table k ct).2 hk).symm.trans ((h.table k' ct).2 hk'))

theorem handle_new_connection {cmd : WSNServerSocketData} (h : Book Handed s) (hct : Handed cmd.connectiontoken)
    (hnew : cmd.connectiontoken ∉ s.names) (hs : Stays (s.handle_new_connection cmd) s')
    (hpc : ∀ cmd, s'.pc ≠ .opening cmd) : s'.names = s.names ++ [cmd.connectiontoken] ∧ Book Handed s' := by
  have hnames : s'.names = s.names ++ [cmd.connectiontoken] := by
    rw [hs.names]
    exact List.map_append
  have hlen : s.names.length = s.handlers.length := List.length_map _
  refine ⟨hnames, fun k ct => ?_, fun ct hct' => ?_, fun cmd' hpc' => absurd hpc' (hpc cmd')⟩
  · rw [hnames, hs.connections]
    show (s.connections.set cmd.connectiontoken s.handlers.length).get? ct = some k ↔ _
    rw [Dict.get?_set]
    split
    · rename_i heq
      subst heq
      constructor
      · rintro ⟨⟩
        rw [← hlen]
        exact List.getElem?_concat_length
      · intro hk
        rcases Agent.getElem?_snoc hk with hk | ⟨rfl, -⟩
        · exact absurd (List.mem_of_getElem? hk) hnew
        · rw [hlen]
    · rename_i hne
      rw [h.table]
      constructor
      · intro hk
        exact (List.getElem?_append_left (List.getElem?_eq_some_iff.1 hk).1).trans hk
      · intro hk
        rcases Agent.getElem?_snoc hk with hk | ⟨-, heq⟩
        · exact hk
        · exact absurd heq hne
  · rw [hnames] at hct'
    rcases List.mem_append.1 hct' with hct' | hct'
    · exact h.handed ct hct'
    · rw [List.mem_singleton.1 hct']
      exact hct

end Book

end WSNetworkTCPServer

/-! ### Both sides -/

namespace Dialogue
open WSNetworkTCPServer (Book Ends)
open WSNetworkServerTCPWriter (Call handedOver carried_call)

inductive Event
  | serving (e : Serving.Event)
  /-- the handler `k` calls its writer -/
  | writer (k : Nat) (c : Call)

inductive Output
  | serving (o : Serving.Output)
  /-- the call of the handler `k` is over, and has raised or not -/
  | called (k : Nat) (c : Call) (raised : Option PyErr)

/-- A call of the handler `k`: its frames are sent, and a `close` that did not raise sets `closed_event`. -/
def putCall (s : Serving) (k : Nat) (h : Handler) (c : Call) (r : List Bytes × Option PyErr) : Serving :=
  { s with
    client := { s.client with
      handlers := s.client.handlers.set k { h with
        reader := { h.reader with closed_event := h.reader.closed_event || (c == .close && r.2.isNone) } } }
    link := { s.link with up := s.link.up ++ r.1 } }

/-- The handlers call their writers until `deleteWebSocket` takes the websocket away. -/
def step (s : Serving) : Event → Option (Serving × List Output)
  | .serving e => (s.step e).map fun r => (r.1, r.2.map .serving)
  | .writer k c =>
    match s.client.handlers[k]? with
    | some h =>
      if s.client.ws then
        let r := WSNetworkServerTCPWriter.call s.client.token h.connectiontoken h.reader.closed_event c
        some (putCall s k h c r, [.called k c r.2])
      else none
    | none => none

def agentOutputs (os : List Output) : List Agent.Output :=
  os.filterMap fun
    | .serving (.agent o) => some o
    | _ => none

/-- The bytes that the handler `k` has written. -/
def writtenBy (k : Nat) (os : List Output) : Bytes :=
  (os.filterMap fun
    | .called i c raised => if i = k then some (handedOver c raised) else none
    | _ => none).flatten

/-- No send of the agent raises. -/
def Event.Sends : Event → Prop
  | .serving (.agent e) => e.isSendFailed = false
  | _ => True

/-- A command of the client: its CONNECT, its `OK`, or a message for a connection that it has a handler for. -/
def Comes (s : WSNetworkTCPServer) (c : CMD) : Prop :=
  c.token = s.token ∧ ((∃ m, c = .CONNECT m ∧ m.kind.branch = .tcpServer) ∨ c.type = .OK ∨
    ∃ m, c = .SDSRV m ∧ m.connectiontoken ∈ s.names)

/-- The commands that the agent has received and those on their way. -/
def commands (s : Serving) (aos : List Agent.Output) : List CMD := Agent.received aos ++ decoded s.link.up

/-- The agent between two steps of a run. -/
structure Agency (s : Serving) (aos : List Agent.Output) : Prop where
  conns : Agent.ConnInv s.link.agent
  tables : Agent.Tables s.link.agent
  asked : Agent.Asked (Agent.received aos) s.link.agent
  told : Agent.Told s.link.agent aos
  delivers : Agent.Delivers s.link.agent aos
  tokens : ∀ m ∈ Agent.sentMessages aos, m.token = s.client.token
  down : ∀ b ∈ s.link.down, b ∈ Wsnet.frames (Agent.sentMessages aos)
  comes : ∀ c ∈ commands s aos, Comes s.client c

/-- The client between two steps of a run. -/
structure Between (s : Serving) (os : List Output) : Prop where
  token : s.client.token.length = 16
  agency : Agency s (agentOutputs os)
  book : Book s.link.agent.Handed s.client
  wrote : ∀ k ct, s.client.names[k]? = some ct →
    (dataFor s.client.token ct (commands s (agentOutputs os))).flatten = writtenBy k os
  idle : ∀ k, s.client.names.length ≤ k → writtenBy k os = []

section Dialogue
variable {s s' : Serving} {e : Event} {o os os' : List Output} {aos : List Agent.Output} {l : Link} {ae : Agent.Event}
  {ao : List Agent.Output}

@[simp] theorem agentOutputs_append : agentOutputs (os ++ os') = agentOutputs os ++ agentOutputs os' :=
  List.filterMap_append

@[simp] theorem writtenBy_append {k : Nat} : writtenBy k (os ++ os') = writtenBy k os ++ writtenBy k os' := by
  rw [writtenBy, List.filterMap_append, List.flatten_append]
  rfl

theorem writtenBy_called {k k' : Nat} {c : Call} {raised : Option PyErr} :
    writtenBy k' [.called k c raised] = if k = k' then handedOver c raised else [] := by
  by_cases h : k = k' <;> simp [writtenBy, h]

theorem Comes.not_file {c : CMD} (h : Comes s.client c) : ¬ (300 ≤ c.type.value ∧ c.type.value < 320) := by
  rcases h.2 with ⟨m, rfl, -⟩ | htype | ⟨m, rfl, -⟩
  · simp [CMD.type, CMDType.value]
  · simp [htype, CMDType.value]
  · simp [CMD.type, CMDType.value]

/-- The command that an agent's step gets is one of the client. -/
theorem Agency.comes_of_step (hp : Agency s aos) (hs : s.link.step ae = some (l, ao)) {c : CMD} (hc : ae.cmd? = some c) :
    Comes s.client c := by
  refine hp.comes c (List.mem_append_right _ ?_)
  rw [Link.cmd?_of_step hs hc]
  exact List.mem_cons_self

theorem Agency.minds (hp : Agency s aos) (hb : Book s.link.agent.Handed s.client)
    (hs : s.link.step ae = some (l, ao)) : s.link.agent.Minds ae := by
  intro c hc
  rcases (hp.comes_of_step hs hc).2 with ⟨m, rfl, -⟩ | htype | ⟨m, rfl, hct⟩
  · exact .inl (.inl rfl)
  · exact .inl (.inr htype)
  · exact .inr ⟨m, rfl, hb.handed _ hct⟩

theorem Agency.ofFiles (hp : Agency s aos) (hs : s.link.step ae = some (l, ao)) : ae.OfFiles := by
  cases ae with
  | recv data f =>
    intro c hc htype
    have hcmd : (Agent.Event.recv data f).cmd? = some c := by simp [Agent.Event.cmd?, hc]
    exact absurd htype (hp.comes_of_step hs hcmd).not_file
  | _ => trivial

theorem Agency.branch (hp : Agency s aos) : ∀ x ∈ s.link.agent.sessions, x.task.branch = .tcpServer := by
  intro x hx
  obtain ⟨hcmd, hbranch, -⟩ := hp.asked.sessions x hx
  rcases (hp.comes _ (List.mem_append_left _ hcmd)).2 with ⟨m, heq, hm⟩ | htype | ⟨m, heq, -⟩
  · cases heq
    exact hbranch.trans hm
  · cases htype
  · cases heq

theorem Agency.processQueues (hp : Agency s aos) (t : Bytes) : s.link.agent.processQueues.get? t = none := by
  cases h : s.link.agent.processQueues.get? t with
  | none => rfl
  | some i =>
    obtain ⟨x, hx, -, hbranch⟩ := hp.tables.process h
    have := hp.branch x (List.mem_of_getElem? hx)
    rw [hbranch] at this
    cases this

/-- The agent's step leaves the commands as they are. -/
theorem Agency.commands_of_step (hp : Agency s aos) (hb : Book s.link.agent.Handed s.client)
    (hs : s.link.step ae = some (l, ao)) (peers : List Peer) :
    commands { s with link := l, peers } (aos ++ ao) = commands s aos := by
  have hreceived := Agent.received_of_step hp.told.mute (hp.minds hb hs) (Link.step_eq_some hs).1
  show Agent.received (aos ++ ao) ++ decoded l.up = Agent.received aos ++ decoded s.link.up
  rw [Agent.received_append, hreceived, List.append_assoc]
  cases hc : ae.cmd? with
  | none => rw [Link.decoded_of_step hs hc, Option.toList_none, List.nil_append]
  | some c => rw [Link.cmd?_of_step hs hc, Option.toList_some, List.singleton_append]

/-- What the agent says answers the client. -/
theorem Agency.speaks (hp : Agency s aos) (hb : Book s.link.agent.Handed s.client)
    (hs : s.link.step ae = some (l, ao)) : Agent.Asked (Agent.received (aos ++ ao)) l.agent ∧
      ∀ m ∈ Agent.sentMessages ao, m.token = s.client.token := by
  have hcomes : ∀ c ∈ Agent.received (aos ++ ao), c.token = s.client.token := by
    intro c hc
    refine (hp.comes c ?_).1
    rw [← hp.commands_of_step hb hs s.peers]
    exact List.mem_append_left _ hc
  have htokens {rs : List CMD} {o : List Agent.Output} (hspeaks : Agent.Speaks rs (l.agent, o))
      (hrs : rs ⊆ Agent.received (aos ++ ao)) (hao : ∀ x ∈ ao, ∀ m, x.message? = some m → x ∈ o) :
      Agent.Asked (Agent.received (aos ++ ao)) l.agent ∧ ∀ m ∈ Agent.sentMessages ao, m.token = s.client.token := by
    refine ⟨hspeaks.asked.mono hrs, fun m hm => ?_⟩
    obtain ⟨x, hx, hmsg⟩ := Agent.mem_sentMessages.1 hm
    obtain ⟨c, hc, htoken, -⟩ := hspeaks.sent x (hao x hx m hmsg) m hmsg
    exact htoken.trans (hcomes c (hrs hc))
  rw [Agent.received_append] at htokens ⊢
  rcases hp.asked.step (hp.ofFiles hs) (Link.step_eq_some hs).1 with hspeaks | ⟨c, o', rfl, hspeaks⟩
  · exact htokens hspeaks (List.subset_append_left _ _) fun x hx _ _ => hx
  · refine htokens hspeaks (fun c' hc' => ?_) fun x hx m hm => ?_
    · rcases List.mem_append.1 hc' with hc' | hc'
      · exact List.mem_append_left _ hc'
      · rw [List.mem_singleton.1 hc']
        exact List.mem_append_right _ List.mem_cons_self
    · rcases List.mem_cons.1 hx with rfl | hx
      · cases hm
      · exact hx

theorem Agency.step (hp : Agency s aos) (hb : Book s.link.agent.Handed s.client) (hsend : ae.isSendFailed = false)
    (hs : s.link.step ae = some (l, ao)) (peers : List Peer) : Agency { s with link := l, peers } (aos ++ ao) := by
  obtain ⟨hstep, hdown, -⟩ := Link.step_eq_some hs
  have hminds := hp.minds hb hs
  have hcommands := hp.commands_of_step hb hs peers
  have hspeaks := hp.speaks hb hs
  refine ⟨hp.conns.step hsend hstep, hp.tables.step hstep, hspeaks.1, ?_, ?_, fun m hm => ?_, fun b hb => ?_,
    fun c hc => ?_⟩
  · exact hp.told.step hp.conns hp.branch hsend hminds hstep
  · exact hp.delivers.step hp.conns.conns hp.told (fun c _ => hp.processQueues c.token) hminds hstep
  · rw [Agent.sentMessages_append] at hm
    exact (List.mem_append.1 hm).elim (hp.tokens m) (hspeaks.2 m)
  · rw [Agent.sentMessages_append, frames_append]
    rw [show ({ s with link := l, peers } : Serving).link.down = l.down from rfl, hdown] at hb
    exact List.mem_append.2 ((List.mem_append.1 hb).imp (hp.down b) id)
  · rw [hcommands] at hc
    exact hp.comes c hc

theorem Between.link (hp : Between s os) (hsend : ae.isSendFailed = false) (hs : s.link.step ae = some (l, ao))
    (peers : List Peer) {o : List Output} (ho : agentOutputs o = ao) (hw : ∀ k, writtenBy k o = []) :
    Between { s with link := l, peers } (os ++ o) := by
  have hstep := (Link.step_eq_some hs).1
  refine ⟨hp.token, ?_, hp.book.mono fun ct => Agent.handed_of_step hstep, fun k ct hk => ?_, fun k hk => ?_⟩
  · rw [agentOutputs_append, ho]
    exact hp.agency.step hp.book hsend hs peers
  · rw [agentOutputs_append, ho, hp.agency.commands_of_step hp.book hs peers, writtenBy_append, hw, List.append_nil]
    exact hp.wrote k ct hk
  · rw [writtenBy_append, hw, List.append_nil]
    exact hp.idle k hk

/-- The client has sent `fs`. -/
theorem Agency.says {client : WSNetworkTCPServer} {fs down : List Bytes} (hp : Agency s aos)
    (htoken : client.token = s.client.token) (hnames : s.client.names ⊆ client.names)
    (hfs : ∀ c ∈ decoded fs, Comes client c) (hdown : ∀ b ∈ down, b ∈ s.link.down) :
    Agency { s with client, link := ⟨s.link.agent, s.link.up ++ fs, down⟩ } aos where
  conns := hp.conns
  tables := hp.tables
  asked := hp.asked
  told := hp.told
  delivers := hp.delivers
  tokens m hm := (hp.tokens m hm).trans htoken.symm
  down b hb := hp.down b (hdown b hb)
  comes c hc := by
    rw [commands, decoded_append, ← List.append_assoc] at hc
    rcases List.mem_append.1 hc with hc | hc
    · obtain ⟨ht, h⟩ := hp.comes c hc
      exact ⟨ht.trans htoken.symm, h.imp_right (Or.imp_right fun h => h.imp fun m hm => hm.imp_right (hnames ·))⟩
    · exact hfs c hc

theorem commands_says {client : WSNetworkTCPServer} {fs down : List Bytes} :
    commands { s with client, link := ⟨s.link.agent, s.link.up ++ fs, down⟩ } aos = commands s aos ++ decoded fs := by
  rw [commands, commands, decoded_append, List.append_assoc]

theorem decoded_ends {token : Bytes} {keys fs : List Bytes} (ht : token.length = 16)
    (hkeys : ∀ ct ∈ keys, ct.length = 16) (h : Ends token keys fs) : ∀ c ∈ decoded fs, c.token = token ∧
      (c.type = .OK ∨ ∃ m, c = .SDSRV m ∧ m.connectiontoken ∈ keys ∧ m.data = []) := by
  intro c hc
  obtain ⟨b, hb, hread⟩ := mem_decoded.1 hc
  rcases h b hb with ⟨ct, hct, hwritten⟩ | hwritten
  · obtain ⟨ip, hip⟩ := CMD.fromBytes_of_toBytes_SDSRV hwritten ht (hkeys ct hct)
    cases hread.symm.trans hip
    exact ⟨rfl, .inr ⟨_, rfl, hct, rfl⟩⟩
  · exact ⟨CMD.token_of_frame hwritten ht hread, .inl (CMD.type_of_fromBytes hwritten hread)⟩

theorem flatten_dataFor {token ct : Bytes} {rs : List CMD} (h : ∀ m, .SDSRV m ∈ rs → m.data = []) :
    (dataFor token ct rs).flatten = [] := by
  refine List.flatten_eq_nil_iff.2 fun d hd => ?_
  obtain ⟨c, hc, heq⟩ := List.mem_filterMap.1 hd
  split at heq
  · split at heq <;> cases heq
    exact h _ hc
  · cases heq

theorem Between.length_handed (hp : Between s os) (hid : s.link.agent.connId ≤ 10 ^ 16) {ct : Bytes}
    (h : s.link.agent.Handed ct) : ct.length = 16 := by
  obtain ⟨j, c, hc, hrun, rfl⟩ := h
  obtain ⟨n, hn, hct⟩ := hp.agency.conns.conns.fresh hc hrun
  rw [hct]
  exact Agent.length_connectionId (by omega)

/-- The message that the client takes names a connection token that has been handed out. -/
theorem Between.handed (hp : Between s os) (hid : s.link.agent.connId ≤ 10 ^ 16) {data : Bytes}
    {cmd : WSNServerSocketData} (hdown : data ∈ s.link.down) (hc : CMD.fromBytes data = .ok (.SDSRV cmd)) :
    s.link.agent.Handed cmd.connectiontoken := by
  obtain ⟨m, hm, hwritten⟩ := mem_frames.1 (hp.agency.down data hdown)
  have htype : CMDType.SDSRV = m.type := CMD.type_of_fromBytes hwritten hc
  cases m with
  | SDSRV m =>
    have hhanded := hp.agency.told.sent m hm
    have heq : m.token = s.client.token := hp.agency.tokens _ hm
    have htoken : m.token.length = 16 := by rw [heq, hp.token]
    obtain ⟨ip, hip⟩ := CMD.fromBytes_of_toBytes_SDSRV hwritten htoken (hp.length_handed hid hhanded)
    cases hc.symm.trans hip
    exact hhanded
  | _ => cases htype

theorem Between.length_keys (hp : Between s os) (hid : s.link.agent.connId ≤ 10 ^ 16) :
    ∀ ct ∈ s.client.connections.keys, ct.length = 16 := fun ct hct =>
  hp.length_handed hid (hp.book.handed ct (hp.book.mem_keys.1 hct))

/-- The client has the same handlers as before, and has sent the ends of some of their connections. -/
theorem Between.stays {client : WSNetworkTCPServer} {fs down : List Bytes} {o : List Output} (hp : Between s os)
    (hid : s.link.agent.connId ≤ 10 ^ 16) (htoken : client.token = s.client.token)
    (hnames : client.names = s.client.names) (hbook : Book s.link.agent.Handed client)
    (hends : Ends s.client.token s.client.connections.keys fs) (hdown : ∀ b ∈ down, b ∈ s.link.down)
    (ho : agentOutputs o = []) (hw : ∀ k, writtenBy k o = []) :
    Between { s with client, link := ⟨s.link.agent, s.link.up ++ fs, down⟩ } (os ++ o) := by
  have hfs := decoded_ends hp.token (hp.length_keys hid) hends
  refine ⟨htoken ▸ hp.token, ?_, hbook, fun k ct hk => ?_, fun k hk => ?_⟩
  · rw [agentOutputs_append, ho, List.append_nil]
    refine hp.agency.says htoken (hnames ▸ List.Subset.refl _) (fun c hc => ?_) hdown
    obtain ⟨ht, hkind⟩ := hfs c hc
    refine ⟨ht.trans htoken.symm, .inr (hkind.imp_right fun h => ?_)⟩
    obtain ⟨m, rfl, hm, -⟩ := h
    exact ⟨m, rfl, hnames ▸ hp.book.mem_keys.1 hm⟩
  · rw [agentOutputs_append, ho, List.append_nil, writtenBy_append, hw, List.append_nil, commands_says, dataFor_append,
      List.flatten_append]
    have hold : (dataFor client.token ct (commands s (agentOutputs os))).flatten = writtenBy k os := by
      rw [htoken]
      exact hp.wrote k ct (hnames ▸ hk)
    have hnew : (dataFor client.token ct (decoded fs)).flatten = [] := flatten_dataFor fun m hm => by
      rcases (hfs _ hm).2 with htype | ⟨m', heq, -, hdata⟩
      · cases htype
      · cases heq
        exact hdata
    rw [hold, hnew, List.append_nil]
  · rw [writtenBy_append, hw, List.append_nil]
    exact hp.idle k (hnames ▸ hk)

/-- The client has made the handler of a new connection. -/
theorem Between.opened {client : WSNetworkTCPServer} {fs : List Bytes} {o : List Output} {ct : Bytes} (hp : Between s os)
    (hid : s.link.agent.connId ≤ 10 ^ 16) (htoken : client.token = s.client.token)
    (hnames : client.names = s.client.names ++ [ct]) (hnew : ct ∉ s.client.names)
    (hbook : Book s.link.agent.Handed client) (hends : Ends client.token client.connections.keys fs)
    (ho : agentOutputs o = []) (hw : ∀ k, writtenBy k o = []) :
    Between { s with client, link := ⟨s.link.agent, s.link.up ++ fs, s.link.down⟩ } (os ++ o) := by
  have hopen : Between { s with client } os := by
    refine ⟨htoken ▸ hp.token, ?_, hbook, fun k ct' hk => ?_, fun k hk => ?_⟩
    · have hnone : ∀ c ∈ decoded [], Comes client c := fun c hc => absurd hc List.not_mem_nil
      have hsays := hp.agency.says htoken (hnames ▸ List.subset_append_left _ _) hnone fun b hb => hb
      rwa [List.append_nil] at hsays
    · show (dataFor client.token ct' (commands s (agentOutputs os))).flatten = writtenBy k os
      rw [htoken]
      rcases Agent.getElem?_snoc (hnames ▸ hk) with hk | ⟨rfl, rfl⟩
      · exact hp.wrote k ct' hk
      · -- nobody has written to a connection without a handler
        rw [hp.idle _ le_rfl, dataFor_eq_nil]
        · rfl
        · intro m hm heq
          rcases (hp.agency.comes _ hm).2 with ⟨m', h, -⟩ | htype | ⟨m', h, hct⟩
          · cases h
          · cases htype
          · cases h
            exact hnew (heq ▸ hct)
    · refine hp.idle k (le_trans ?_ hk)
      show s.client.names.length ≤ client.names.length
      rw [hnames, List.length_append]
      omega
  exact hopen.stays hid rfl rfl hbook hends (fun b hb => hb) ho hw

theorem Between.client {ce : WSNetworkTCPServer.Event} {client : WSNetworkTCPServer}
    {co : List WSNetworkTCPServer.Output} {down : List Bytes} {o : List Output} (hp : Between s os)
    (hid : s.link.agent.connId ≤ 10 ^ 16) (hs : s.client.step ce = some (client, co))
    (hdown : s.link.down = WSNetworkTCPServer.received [ce] ++ down) (ho : agentOutputs o = [])
    (hw : ∀ k, writtenBy k o = []) :
    Between { s with client, link := ⟨s.link.agent, s.link.up ++ WSNetworkTCPServer.sent co, down⟩ } (os ++ o) := by
  have hsub : ∀ b ∈ down, b ∈ s.link.down := fun b hb => hdown ▸ List.mem_append_right _ hb
  generalize hfs : WSNetworkTCPServer.sent co = fs
  have hregisters := hfs ▸ WSNetworkTCPServer.registers_of_step hs
  cases hregisters with
  | stays h hends => exact hp.stays hid h.token h.names (hp.book.stays h) hends hsub ho hw
  | @opening cmd data he hc hnew =>
    subst he
    have hmem : data ∈ s.link.down := by
      rw [hdown]
      exact List.mem_cons_self
    have hnotin : cmd.connectiontoken ∉ s.client.names := by
      rw [← hp.book.mem_keys, ← Dict.contains_iff_mem_keys, hnew]
      exact Bool.false_ne_true
    refine hp.stays hid rfl rfl ⟨hp.book.table, hp.book.handed, fun cmd' hpc => ?_⟩ .nil hsub ho hw
    cases hpc
    exact ⟨hp.handed hid hmem hc, hnotin⟩
  | @opened cmd _ _ he hpc h hpc' hends =>
    subst he
    obtain ⟨hhanded, hnew⟩ := hp.book.opening cmd hpc
    obtain ⟨hnames, hbook⟩ := hp.book.handle_new_connection hhanded hnew h hpc'
    obtain rfl : s.link.down = down := hdown
    exact hp.opened hid h.token hnames hnew hbook hends ho hw

/-- A handler calls its writer. -/
theorem Between.writer {k : Nat} {h : Handler} {c : Call} (hp : Between s os) (hid : s.link.agent.connId ≤ 10 ^ 16)
    (hk : s.client.handlers[k]? = some h) {r : List Bytes × Option PyErr}
    (hr : r = WSNetworkServerTCPWriter.call s.client.token h.connectiontoken h.reader.closed_event c) :
    Between (putCall s k h c r) (os ++ [.called k c r.2]) := by
  have hname : s.client.names[k]? = some h.connectiontoken := by
    rw [WSNetworkTCPServer.names, List.getElem?_map, hk]
    rfl
  have hstays : WSNetworkTCPServer.Stays s.client (putCall s k h c r).client :=
    ⟨rfl, rfl, WSNetworkTCPServer.names_set hk rfl, fun _ => id⟩
  have hct := hp.length_handed hid (hp.book.handed _ (List.mem_of_getElem? hname))
  have hcarried : Carried s.client.token h.connectiontoken r.1 (handedOver c r.2) := hr ▸ carried_call hp.token hct _ c
  refine ⟨hp.token, ?_, hp.book.stays hstays, fun k' ct hk' => ?_, fun k' hk' => ?_⟩
  · rw [agentOutputs_append, show agentOutputs [.called k c r.2] = [] from rfl, List.append_nil]
    refine hp.agency.says rfl (hstays.names ▸ List.Subset.refl _) (fun x hx => ?_) fun b hb => hb
    obtain ⟨m, rfl, ht, hm⟩ := hcarried.named x hx
    refine ⟨ht, .inr (.inr ⟨m, rfl, ?_⟩)⟩
    show m.connectiontoken ∈ (putCall s k h c r).client.names
    rw [hstays.names, hm]
    exact List.mem_of_getElem? hname
  · rw [hstays.names] at hk'
    rw [agentOutputs_append, show agentOutputs [.called k c r.2] = [] from rfl, List.append_nil, putCall, commands_says,
      dataFor_append, List.flatten_append, writtenBy_append, hp.wrote k' ct hk', writtenBy_called]
    refine congrArg (writtenBy k' os ++ ·) ?_
    by_cases hkk : k = k'
    · subst hkk
      cases hname.symm.trans hk'
      rw [if_pos rfl]
      exact hcarried.data
    · rw [if_neg hkk, dataFor_eq_nil]
      · rfl
      · intro m hm heq
        obtain ⟨m', h', -, hct'⟩ := hcarried.named _ hm
        cases h'
        obtain rfl : h.connectiontoken = ct := hct'.symm.trans heq
        exact hkk (hp.book.unique hname hk')
  · rw [hstays.names] at hk'
    have hlt : k < s.client.names.length := (List.getElem?_eq_some_iff.1 hname).1
    rw [writtenBy_append, hp.idle k' hk', writtenBy_called, if_neg (by omega)]
    rfl

@[simp] theorem agentOutputs_client (o : List WSNetworkTCPServer.Output) :
    agentOutputs ((o.map .client).map .serving) = [] := by
  rw [agentOutputs, List.map_map, List.filterMap_map, List.filterMap_eq_nil_iff]
  exact fun x _ => rfl

@[simp] theorem agentOutputs_agent (o : List Agent.Output) : agentOutputs ((o.map .agent).map .serving) = o := by
  rw [agentOutputs, List.map_map, List.filterMap_map]
  exact List.filterMap_some

@[simp] theorem writtenBy_serving (k : Nat) (o : List Serving.Output) : writtenBy k (o.map .serving) = [] := by
  have hnil : (o.map Output.serving).filterMap (fun
      | .called i c raised => if i = k then some (handedOver c raised) else none
      | _ => none) = [] := by
    rw [List.filterMap_map, List.filterMap_eq_nil_iff]
    exact fun x _ => rfl
  rw [writtenBy, hnil, List.flatten_nil]

theorem Between.step (hp : Between s os) (he : e.Sends) (hid : s.link.agent.connId ≤ 10 ^ 16)
    (hs : step s e = some (s', o)) : Between s' (os ++ o) := by
  cases e with
  | writer k c =>
    simp only [Dialogue.step] at hs
    split at hs
    · split at hs <;> cases hs
      exact hp.writer hid ‹_› rfl
    · cases hs
  | serving e =>
    simp only [Dialogue.step] at hs
    obtain ⟨⟨s₁, o₁⟩, hstep, heq⟩ := Option.map_eq_some_iff.1 hs
    cases heq
    cases Serving.moves_of_step hstep with
    | client hmove hd => exact hp.client hid hmove hd (agentOutputs_client _) fun k => writtenBy_serving k _
    | accept hmove | read _ _ hmove | agent hmove =>
      exact hp.link he hmove _ (agentOutputs_agent _) fun k => writtenBy_serving k _
    | peer hj hmove =>
      rw [List.map_nil, List.append_nil]
      exact ⟨hp.token, ⟨hp.agency.conns, hp.agency.tables, hp.agency.asked, hp.agency.told, hp.agency.delivers,
        hp.agency.tokens, hp.agency.down, hp.agency.comes⟩, hp.book, hp.wrote, hp.idle⟩

theorem connId_le_of_step (hs : step s e = some (s', o)) : s.link.agent.connId ≤ s'.link.agent.connId := by
  cases e with
  | writer k c =>
    simp only [Dialogue.step] at hs
    split at hs
    · split at hs <;> cases hs
      exact le_rfl
    · cases hs
  | serving e =>
    simp only [Dialogue.step] at hs
    obtain ⟨⟨s₁, o₁⟩, hstep, heq⟩ := Option.map_eq_some_iff.1 hs
    cases heq
    exact Serving.connId_le_of_step hstep

variable {full : Bool} {info : WSNGetInfoReply} {token : Bytes} {ip : String} {port bindtype : Int} {es : List Event}

theorem branch_of_bind {c : WSNConnect} (hprot : c.protocol = "TCP") (hbind : c.bind = true) :
    c.kind.branch = .tcpServer := by
  by_cases htype : c.bindtype = 1 <;> simp [WSNConnect.kind, hprot, hbind, htype, SocketKind.branch]

theorem between_start (ht : token.length = 16) :
    Between (Serving.start full info (Serving.newClient token ip port bindtype)) [] where
  token := ht
  agency := by
    refine ⟨.init full info, .init full info, .init full info, ⟨?_, ?_, ?_⟩, ⟨fun j _ => rfl, ?_⟩, ?_, ?_, fun c hc => ?_⟩
    · exact fun m hm => absurd hm List.not_mem_nil
    · exact fun m hm => absurd hm List.not_mem_nil
    · exact Agent.mute_of_ne fun _ _ hi => by cases hi
    · exact fun j c hc => by cases hc
    · exact fun m hm => absurd hm List.not_mem_nil
    · exact fun b hb => absurd hb List.not_mem_nil
    · obtain ⟨b, hb, hread⟩ := mem_decoded.1 (show c ∈ decoded (trySend _) from hc)
      obtain ⟨m, rfl, htok, hprot, hbind⟩ :=
        CMD.fromBytes_of_toBytes_CONNECT (mem_trySend.1 hb) ht (show (utf8Encode "TCP").length = 3 by decide) hread
      exact ⟨htok, .inl ⟨m, rfl, branch_of_bind hprot hbind⟩⟩
  book := by
    refine ⟨fun k ct => ?_, fun ct hct => absurd hct List.not_mem_nil, fun cmd hpc => by cases hpc⟩
    simp [Serving.start, Serving.newClient, WSNetworkTCPServer.names]
  wrote k ct hk := by cases hk
  idle k _ := rfl

theorem between_of_run (ht : token.length = 16)
    (h : Run step (Serving.start full info (Serving.newClient token ip port bindtype)) es s os)
    (he : ∀ e ∈ es, e.Sends) (hid : s.link.agent.connId ≤ 10 ^ 16) : Between s os := by
  refine h.invariant_of (P := fun s os => s.link.agent.connId ≤ 10 ^ 16 → Between s os) (fun he hp hs hid => ?_) he
    (fun _ => between_start ht) hid
  have hle := (connId_le_of_step hs).trans hid
  exact (hp hle).step he hle hs

/-- The handler `k` has the connection `j`. -/
def Attached (s : Serving) (k j : Nat) : Prop :=
  ∃ (h : Handler) (c : TCPServerConnection), s.client.handlers[k]? = some h ∧ s.link.agent.conns[j]? = some c ∧
    c.run ≠ .accepted ∧ c.connectiontoken = h.connectiontoken

/-- What the peer of the connection `j` has been written. -/
def got (j : Nat) (os : List Output) : Bytes := (Agent.wroteBy j (agentOutputs os)).flatten

/-- Every handler has one connection of its own, the peer of which gets what the handler writes, in order and nothing
else. -/
structure Serves (s : Serving) (os : List Output) : Prop where
  attached : ∀ k < s.client.handlers.length, ∃! j, Attached s k j
  unique : ∀ {k k' j : Nat}, Attached s k j → Attached s k' j → k = k'
  fst : ∀ {k j : Nat}, Attached s k j → got j os <+: writtenBy k os
  all : ∀ {k j : Nat} {c : TCPServerConnection}, Attached s k j → s.link.up = [] → s.link.agent.conns[j]? = some c →
    s.link.agent.Entered j c → got j os = writtenBy k os
  nothing : ∀ {j : Nat}, (∀ k, ¬ Attached s k j) → got j os = []

theorem attached_iff {k j : Nat} : Attached s k j ↔ ∃ (c : TCPServerConnection),
    s.client.names[k]? = some c.connectiontoken ∧ s.link.agent.conns[j]? = some c ∧ c.run ≠ .accepted := by
  constructor
  · rintro ⟨h, c, hk, hj, hrun, hct⟩
    refine ⟨c, ?_, hj, hrun⟩
    rw [WSNetworkTCPServer.names, List.getElem?_map, hk, hct]
    rfl
  · rintro ⟨c, hk, hj, hrun⟩
    rw [WSNetworkTCPServer.names, List.getElem?_map] at hk
    obtain ⟨h, hk, hct⟩ := Option.map_eq_some_iff.1 hk
    exact ⟨h, c, hk, hj, hrun, hct.symm⟩

/-- What has come for the connection of a handler is what the handler has written, but for what is on its way. -/
theorem Between.attached (hp : Between s os) {k j : Nat} (h : Attached s k j) :
    ∃ c, s.link.agent.conns[j]? = some c ∧ got j os <+: writtenBy k os ∧
      (s.link.up = [] → s.link.agent.Entered j c → got j os = writtenBy k os) := by
  obtain ⟨c, hk, hj, hrun⟩ := attached_iff.1 h
  obtain ⟨hfirst, hall⟩ := hp.agency.delivers.started j c hj hrun
  have htoken : c.token = s.client.token := by
    obtain ⟨cmd, hcmd, htok, -⟩ := hp.agency.asked.conns c (List.mem_of_getElem? hj)
    exact htok.symm.trans (hp.agency.comes _ (List.mem_append_left _ hcmd)).1
  have hwrote := hp.wrote k _ hk
  rw [commands, dataFor_append, List.flatten_append] at hwrote
  rw [htoken] at hfirst hall
  refine ⟨c, hj, ?_, fun hup hent => ?_⟩
  · rw [← hwrote]
    exact hfirst.flatten.trans (List.prefix_append _ _)
  · rw [hup, decoded_nil, dataFor_nil, List.flatten_nil, List.append_nil] at hwrote
    rw [got, hall hent, hwrote]

theorem Between.serves (hp : Between s os) : Serves s os where
  attached k hk := by
    have hname : s.client.names[k]? = some (s.client.handlers[k]).connectiontoken := by
      rw [WSNetworkTCPServer.names, List.getElem?_map, List.getElem?_eq_getElem hk]
      rfl
    obtain ⟨j, c, hj, hrun, hct⟩ := hp.book.handed _ (List.mem_of_getElem? hname)
    refine ⟨j, attached_iff.2 ⟨c, by rw [hname, hct], hj, hrun⟩, fun j' h' => ?_⟩
    obtain ⟨c', hk', hj', hrun'⟩ := attached_iff.1 h'
    exact hp.agency.conns.conns.unique hj' hj hrun' hrun
      ((Option.some.inj (hk'.symm.trans hname)).trans hct.symm)
  unique h h' := by
    obtain ⟨c, hk, hj, -⟩ := attached_iff.1 h
    obtain ⟨c', hk', hj', -⟩ := attached_iff.1 h'
    cases hj.symm.trans hj'
    exact hp.book.unique hk hk'
  fst h := by
    obtain ⟨-, -, hfirst, -⟩ := hp.attached h
    exact hfirst
  all h hup hj hent := by
    obtain ⟨c, hj', -, hall⟩ := hp.attached h
    cases hj.symm.trans hj'
    exact hall hup hent
  nothing {j} h := by
    by_cases hrun : ∀ c, s.link.agent.conns[j]? = some c → c.run = .accepted
    · rw [got, hp.agency.delivers.unstarted j hrun, List.flatten_nil]
    · obtain ⟨c, hc⟩ := not_forall.1 hrun
      obtain ⟨hj, hrun⟩ := Classical.not_imp.1 hc
      have hnone : dataFor c.token c.connectiontoken (Agent.received (agentOutputs os)) = [] := by
        refine dataFor_eq_nil fun m hm heq => ?_
        rcases (hp.agency.comes _ (List.mem_append_left _ hm)).2 with ⟨m', hm', -⟩ | htype | ⟨m', hm', hct⟩
        · cases hm'
        · cases htype
        · cases hm'
          obtain ⟨k, hk⟩ := List.mem_iff_getElem?.1 hct
          exact h k (attached_iff.2 ⟨c, by rw [hk, heq], hj, hrun⟩)
      have hnil := List.prefix_nil.1 (hnone ▸ (hp.agency.delivers.started j c hj hrun).1)
      rw [got, hnil, List.flatten_nil]

/-- In every run each handler of a TCP server has the connection of one peer to itself, and the peer gets what it
writes. -/
theorem peers_get_writes (ht : token.length = 16)
    (h : Run step (Serving.start full info (Serving.newClient token ip port bindtype)) es s os)
    (he : ∀ e ∈ es, e.Sends) (hid : s.link.agent.connId ≤ 10 ^ 16) : Serves s os :=
  (between_of_run ht h he hid).serves

/-- A peer connects. -/
def onePeer : List Serving.Event :=
  Serving.opening ++ Serving.connects (Agent.init true Agent.someInfo) ++
    [.agent (.conn 0 .sent), .client (.message Serving.openFrame), .client .opened]

/-- Its handler writes three bytes and closes. -/
def threeBytesBack : List Event :=
  onePeer.map .serving ++ [.writer 0 (.write [1, 2, 3]), .serving (.agent (.recv Serving.dataFrame {})),
    .serving (.agent .drained), .writer 0 .close]

theorem peers_get_writes_threeBytesBack : ∃ s os, Run step Serving.oneServer threeBytesBack s os ∧
    writtenBy 0 os = [1, 2, 3] ∧ got 0 os = [1, 2, 3] ∧ Serves s os :=
  have ⟨s, os, h, hwritten, hgot, hid⟩ : ∃ s os, Run step Serving.oneServer threeBytesBack s os ∧
      writtenBy 0 os = [1, 2, 3] ∧ got 0 os = [1, 2, 3] ∧ s.link.agent.connId ≤ 10 ^ 16 :=
    ⟨_, _, .of_exec rfl, rfl, rfl, Nat.le_of_ble_eq_true rfl⟩
  ⟨s, os, h, hwritten, hgot, peers_get_writes rfl h (by
    simp [threeBytesBack, onePeer, Serving.opening, Serving.connects, Event.Sends, Agent.Event.isSendFailed,
      Session.Event.isSendFailed]) hid⟩

end Dialogue

end Dialogue

end Wsnet.Pyodide
