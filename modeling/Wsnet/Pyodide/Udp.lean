import Wsnet.Agent.Relay
import Wsnet.Pyodide.LocalClose
import Wsnet.Pyodide.Serving

/-!
# The client of a UDP session

`WSNetworkUDP` is its `run`, that is `connect` to its answer, and then the two tasks: `__handle_out`, which is
`OutTask`, and `__handle_in`, which puts what it takes from `internal_in_q` into the `in_q` of its user. Each of
the two ends with a `terminate`, which cancels both, deletes the websocket and puts a `None` into `internal_in_q`.
-/

namespace Wsnet.Pyodide

open WSNETConnection (HandlerTask)

namespace WSNetworkUDP

/-- Where `run` is. -/
inductive Pc
  /-- in `connect`, before the websocket is open -/
  | opening
  /-- in `connect`, before the answer to the CONNECT -/
  | connecting
  /-- `run` has returned `(False, err)` -/
  | failed
  /-- `run` has returned `(True, None)` -/
  | connected
  deriving DecidableEq, Repr

/-- What is put into `in_q`. -/
inductive Item
  /-- `(data, (clientip, clientport), None)` -/
  | datagram (data : Bytes) (clientip : String) (clientport : Int)
  /-- `(None, None, e)` -/
  | error
  /-- `None` -/
  | none
  deriving DecidableEq, Repr

end WSNetworkUDP

structure WSNetworkUDP where
  ip : String
  port : Int
  /-- the token, the websocket, `out_q` and `out_task` -/
  out : WSNetworkUDP.OutTask
  pc : WSNetworkUDP.Pc := .opening
  /-- `disconnected_evt` is set -/
  disconnected : Bool := false
  internal_in_q : List (Option Bytes) := []
  /-- all that was put into it -/
  in_q : List WSNetworkUDP.Item := []
  in_task : HandlerTask := {}
  deriving DecidableEq, Repr

namespace WSNetworkUDP

inductive Event
  /-- a frame comes on the websocket -/
  | message (data : Bytes)
  /-- the websocket opens, and the CONNECT is sent; the send may raise -/
  | opened (raises : Bool)
  /-- the wait for it runs out -/
  | timeout
  /-- the websocket closes -/
  | disconnect
  /-- `internal_in_q.get()` returns to `connect` or to `__handle_in` -/
  | get
  /-- `__handle_in` runs for the first time -/
  | startIn
  /-- it runs after it has been cancelled -/
  | cancelledIn
  /-- the user puts something into `out_q`, or `__handle_out` runs -/
  | out (e : OutEvent)
  /-- `terminate` is called -/
  | terminate
  deriving DecidableEq, Repr

def token (s : WSNetworkUDP) : Bytes := s.out.token

/-- The command that `connect` sends. -/
def connectCmd (s : WSNetworkUDP) : CMD := .CONNECT { token := s.token, protocol := "UDP", ip := s.ip, port := s.port }

/-- `terminate`: there are no tasks before `run` has returned. -/
def terminated (s : WSNetworkUDP) : WSNetworkUDP :=
  if s.pc = .connected then
    { s with internal_in_q := s.internal_in_q ++ [none], in_task := s.in_task.cancel, out := s.out.terminate }
  else { s with internal_in_q := s.internal_in_q ++ [none], out := { s.out with ws := false } }

/-- `await self.in_q.put(item)` -/
def put (s : WSNetworkUDP) (item : Item) : WSNetworkUDP := { s with in_q := s.in_q ++ [item] }

/-- `run` with an error from `connect` -/
def fail (s : WSNetworkUDP) : WSNetworkUDP := { s.put .none with pc := .failed }

/-- The `finally` block of `__handle_in`. -/
def finishIn (s : WSNetworkUDP) : WSNetworkUDP := { s.terminated with in_task := { pc := .done } }

/-- `while not self.disconnected_evt.is_set()` in `__handle_in` -/
def loop (s : WSNetworkUDP) : WSNetworkUDP :=
  if s.disconnected then s.finishIn else { s with in_task := { pc := .waiting } }

/-- `connect` behind the `get` of the answer, and the rest of `run` -/
def answer (s : WSNetworkUDP) : Option Bytes → WSNetworkUDP
  | none => s.fail
  | some data =>
    match CMD.fromBytes data with
    | .ok (.CONTINUE _) => { s with pc := .connected }
    | _ => s.fail

/-- `__handle_in` behind its `get`; only an SDSRV has all the attributes that are asked for. -/
def handle_in (s : WSNetworkUDP) : Option Bytes → WSNetworkUDP
  | none => s.finishIn
  | some data =>
    match CMD.fromBytes data with
    | .ok (.SDSRV cmd) => (s.put (.datagram cmd.data cmd.clientip cmd.clientport)).loop
    | _ => (s.put .error).finishIn

/-- `while not self.disconnected_evt.is_set()` in `__handle_out` -/
def loopOut (s : WSNetworkUDP) (r : OutTask × List Bytes) : OutTask × List Bytes :=
  if s.disconnected ∧ r.1.out_task.pc = .waiting then (r.1.finish.1, r.2 ++ r.1.finish.2) else r

/-- `__handle_out` has ended with its `finally` block, of which `OutTask` has its own part. -/
def endedOut (s : WSNetworkUDP) : WSNetworkUDP :=
  { s with internal_in_q := s.internal_in_q ++ [none], in_task := s.in_task.cancel }

/-- `__handle_out` takes its turn. -/
def runOut (s : WSNetworkUDP) (e : OutEvent) : Option (WSNetworkUDP × List Bytes) :=
  ((s.out.step e).map s.loopOut).map fun r =>
    (if r.1.out_task.pc = .done ∧ (s.out.out_task.pc = .waiting ∨ e = .start) then { s with out := r.1 }.endedOut
      else { s with out := r.1 }, r.2)

def step (s : WSNetworkUDP) : Event → Option (WSNetworkUDP × List Bytes)
  | .message data => some ({ s with internal_in_q := s.internal_in_q ++ [some data] }, [])
  | .opened raises =>
    if s.pc = .opening then
      if raises then some (s.fail, [])
      else
        match s.connectCmd.toBytes with
        | .ok b => some ({ s with pc := .connecting }, s.out.emit [b])
        | .error _ => some (s.fail, [])
    else none
  | .timeout => if s.pc = .opening then some (s.fail, []) else none
  | .disconnect => some ({ s with disconnected := true }, [])
  | .get =>
    match s.internal_in_q with
    | [] => none
    | item :: rest =>
      if s.pc = .connecting then some ({ s with internal_in_q := rest }.answer item, [])
      else if s.pc = .connected ∧ s.in_task = { pc := .waiting } then
        some ({ s with internal_in_q := rest }.handle_in item, [])
      else none
  | .startIn => if s.pc = .connected ∧ s.in_task = {} then some (s.loop, []) else none
  | .cancelledIn =>
    if s.pc = .connected ∧ s.in_task.cancelled then
      some (if s.in_task.pc = .waiting then s.finishIn else { s with in_task := { pc := .done } }, [])
    else none
  | .out (.put item) => (s.out.step (.put item)).map fun r => ({ s with out := r.1 }, r.2)
  | .out .terminate => none
  | .out e => if s.pc = .connected then s.runOut e else none
  | .terminate => some (s.terminated, [])

/-! ### What is sent -/

/-- An item that is sent and not the end. -/
def Outgoing.IsData : Outgoing → Prop
  | some (some data, _) => data ≠ []
  | _ => False

/-- The packets that an item stands for: more than one for data that are too long for a message. -/
def Outgoing.packets : Outgoing → List Packet
  | some (some data, addr) => if data = [] then [] else (pieces data).map fun piece => (piece, addr)
  | _ => []

/-- What the user asks for, up to the first item that ends the connection. -/
def asked : List Outgoing → List Packet
  | [] => []
  | some (some (b :: data), addr) :: rest => Outgoing.packets (some (some (b :: data), addr)) ++ asked rest
  | _ :: _ => []

/-- The packets in the frames that the client sends. -/
def sentPackets (fs : List Bytes) : List Packet :=
  (decoded fs).filterMap fun
    | .SDSRV m => some m.packet
    | _ => none

section
variable {ps ps' : List Outgoing} {item : Outgoing} {fs fs' : List Bytes} {token : Bytes} {c : CMD} {b : Bytes}

@[simp] theorem sentPackets_nil : sentPackets [] = [] := rfl

@[simp] theorem sentPackets_append : sentPackets (fs ++ fs') = sentPackets fs ++ sentPackets fs' := by
  simp [sentPackets]

theorem packets_data {data : Bytes} (h : data ≠ []) (addr : String × Int) :
    Outgoing.packets (some (some data, addr)) = (pieces data).map fun piece => (piece, addr) := if_neg h

theorem asked_append (h : ∀ x ∈ ps, Outgoing.IsData x) : asked (ps ++ ps') = asked ps ++ asked ps' := by
  induction ps with
  | nil => rfl
  | cons x ps ih =>
    have hx := h x List.mem_cons_self
    rcases x with _ | ⟨_ | _ | ⟨b, data⟩, addr⟩
    · exact hx.elim
    · exact hx.elim
    · exact absurd rfl hx
    · rw [List.cons_append, asked, asked, ih fun y hy => h y (List.mem_cons_of_mem _ hy), List.append_assoc]

theorem asked_cons (h : item.IsData) : asked (item :: ps) = item.packets ++ asked ps := by
  rcases item with _ | ⟨_ | _ | ⟨b, data⟩, addr⟩
  · exact h.elim
  · exact h.elim
  · exact absurd rfl h
  · rfl

theorem asked_of_not_isData (h : ¬ item.IsData) : asked (item :: ps) = [] := by
  rcases item with _ | ⟨_ | _ | ⟨b, data⟩, addr⟩
  · rfl
  · rfl
  · rfl
  · exact absurd (List.cons_ne_nil b data) h

theorem asked_le_concat (item : Outgoing) : asked ps <+: asked (ps ++ [item]) := by
  induction ps with
  | nil => exact List.nil_prefix
  | cons x ps ih =>
    by_cases hx : x.IsData
    · rw [List.cons_append, asked_cons hx, asked_cons hx]
      exact (List.prefix_append_right_inj _).2 ih
    · rw [asked_of_not_isData hx]
      exact List.nil_prefix

theorem sentPackets_of_type (h : c.toBytes = .ok b) (hc : c.type ≠ .SDSRV) : sentPackets [b] = [] := by
  unfold sentPackets
  cases hm : CMD.fromBytes b with
  | error e => simp [decoded_cons_error hm]
  | ok m =>
    have htype := CMD.type_of_fromBytes h hm
    rw [decoded_cons_ok hm]
    cases m with
    | SDSRV m => exact absurd htype.symm hc
    | _ => rfl

theorem sentPackets_message (ht : token.length = 16) {p : Packet} (h : (CMD.SDSRV (p.message token)).toBytes = .ok b) :
    sentPackets [b] = [p.readdressed] := by
  have hread := CMD.fromBytes_SDSRV (c := p.message token) h ht rfl
  rw [sentPackets, decoded_cons_ok hread]
  rfl

theorem sentPackets_take (fs : List Bytes) (n : Nat) : sentPackets (fs.take n) <+: sentPackets fs := by
  conv_rhs => rw [← List.take_append_drop n fs, sentPackets_append]
  exact List.prefix_append ..

theorem sentPackets_frames (ht : token.length = 16) (addr : String × Int) (ds : List Bytes) :
    sentPackets (frames (fun d => .SDSRV (Packet.message token (d, addr))) ds).1 <+:
        ds.map (fun d => Packet.readdressed (d, addr)) ∧
      ((frames (fun d => .SDSRV (Packet.message token (d, addr))) ds).2 = none →
        sentPackets (frames (fun d => .SDSRV (Packet.message token (d, addr))) ds).1 =
          ds.map fun d => Packet.readdressed (d, addr)) := by
  induction ds with
  | nil => exact ⟨List.nil_prefix, fun _ => rfl⟩
  | cons d ds ih =>
    rw [frames]
    split
    · rename_i b hb
      have hone := sentPackets_message ht hb
      rw [← List.singleton_append (l := (frames _ ds).1), sentPackets_append, hone, List.map_cons]
      exact ⟨(List.prefix_append_right_inj [_]).2 ih.1, fun h => congrArg _ (ih.2 h)⟩
    · exact ⟨List.nil_prefix, fun h => by cases h⟩

/-- What is sent for an item, and whether it is all of it. -/
theorem sentPackets_handleOut (ht : token.length = 16) {data : Bytes} (h : data ≠ []) (addr : String × Int) :
    sentPackets (handleOut token data addr).1 <+:
        (Outgoing.packets (some (some data, addr))).map Packet.readdressed ∧
      ((handleOut token data addr).2 = none → sentPackets (handleOut token data addr).1 =
        (Outgoing.packets (some (some data, addr))).map Packet.readdressed) := by
  rw [handleOut, if_neg h, packets_data h, List.map_map]
  exact sentPackets_frames ht addr (pieces data)

theorem sentPackets_okFrames (token : Bytes) : sentPackets (WSNETConnection.okFrames token) = [] := by
  unfold WSNETConnection.okFrames
  cases h : (CMD.OK { token }).toBytes with
  | ok b =>
    rw [trySend_eq h]
    exact sentPackets_of_type h (by simp [CMD.type])
  | error e =>
    rw [trySend, h]
    rfl

/-- What an event gives to the task. -/
def OutEvent.given : OutEvent → List Outgoing
  | .put item => [item]
  | _ => []

end

namespace OutTask

/-- The frames `fs` of the task are those of the first of what it has been given, and of all that it has taken as
long as it runs. -/
structure Sends (given : List Outgoing) (s : OutTask) (fs : List Bytes) : Prop where
  asked : sentPackets fs <+: (WSNetworkUDP.asked given).map Packet.readdressed
  runs : s.ws = true → s.out_task.pc ≠ .done → ∃ taken, given = taken ++ s.out_q ∧ (∀ x ∈ taken, x.IsData) ∧
    sentPackets fs = (WSNetworkUDP.asked taken).map Packet.readdressed

variable {given : List Outgoing} {s s' : OutTask} {fs o : List Bytes} {e : OutEvent}

/-- A step that sends no packet and takes nothing. -/
theorem Sends.silent (hp : Sends given s fs) (ho : sentPackets o = [])
    (h : s'.ws = true → s'.out_task.pc ≠ .done → s.ws = true ∧ s.out_task.pc ≠ .done ∧ s'.out_q = s.out_q) :
    Sends given s' (fs ++ o) where
  asked := by
    rw [sentPackets_append, ho, List.append_nil]
    exact hp.asked
  runs hws hpc := by
    obtain ⟨hws, hpc, hq⟩ := h hws hpc
    rw [hq, sentPackets_append, ho, List.append_nil]
    exact hp.runs hws hpc

theorem sentPackets_emit_okFrames (s : OutTask) : sentPackets (s.emit (WSNETConnection.okFrames s.token)) = [] := by
  unfold emit
  split
  · exact sentPackets_okFrames s.token
  · rfl

theorem sentPackets_finish (s : OutTask) : sentPackets s.finish.2 = [] := sentPackets_emit_okFrames s

/-- What the task does with an item. -/
theorem taken_sends (ht : s.token.length = 16) (hws : s.ws = true) (item : Outgoing) (raises : Option Nat) :
    (item.IsData ∧ (s.taken item raises).1 = s ∧
        sentPackets (s.taken item raises).2 = item.packets.map Packet.readdressed) ∨
      ((s.taken item raises).1.out_task.pc = .done ∧
        sentPackets (s.taken item raises).2 <+: (WSNetworkUDP.asked [item]).map Packet.readdressed) := by
  have hfinish : sentPackets s.finish.2 = [] := sentPackets_finish s
  have hasked : ∀ {data : Bytes} {addr : String × Int}, data ≠ [] →
      WSNetworkUDP.asked [some (some data, addr)] = Outgoing.packets (some (some data, addr)) := by
    intro data addr hne
    rw [asked_cons (show Outgoing.IsData (some (some data, addr)) from hne)]
    exact List.append_nil _
  have hemit : ∀ fs, s.emit fs = fs := fun fs => if_pos hws
  fun_cases taken s item raises
  case case1 => exact .inr ⟨rfl, by rw [hfinish]; exact List.nil_prefix⟩
  case case2 => exact .inr ⟨rfl, by rw [hfinish]; exact List.nil_prefix⟩
  case case3 => exact .inr ⟨rfl, by rw [hfinish]; exact List.nil_prefix⟩
  case case4 data addr hne n sent err heq =>
    obtain ⟨hpre, -⟩ := sentPackets_handleOut ht hne addr
    rw [heq] at hpre
    refine .inr ⟨rfl, ?_⟩
    rw [hemit, sentPackets_append, hfinish, List.append_nil, hasked hne]
    exact (sentPackets_take sent n).trans hpre
  case case5 data addr hne sent err heq =>
    obtain ⟨hpre, -⟩ := sentPackets_handleOut ht hne addr
    rw [heq] at hpre
    refine .inr ⟨rfl, ?_⟩
    rw [hemit, sentPackets_append, hfinish, List.append_nil, hasked hne]
    exact hpre
  case case6 data addr hne sent heq =>
    obtain ⟨-, hall⟩ := sentPackets_handleOut ht hne addr
    rw [heq] at hall
    refine .inl ⟨hne, rfl, ?_⟩
    rw [hemit]
    exact hall rfl

theorem Sends.step (hp : Sends given s fs) (ht : s.token.length = 16) (hs : s.step e = some (s', o)) :
    Sends (given ++ e.given) s' (fs ++ o) := by
  have hnil : e.given = [] → given ++ e.given = given := fun h => by rw [h, List.append_nil]
  cases e with
  | put item =>
    cases hs
    refine ⟨?_, fun hws hpc => ?_⟩
    · rw [List.append_nil]
      exact hp.asked.trans ((asked_le_concat item).map _)
    · obtain ⟨taken, hgiven, hdata, hsent⟩ := hp.runs hws hpc
      refine ⟨taken, ?_, hdata, ?_⟩
      · rw [hgiven, List.append_assoc]
        rfl
      · rw [List.append_nil]
        exact hsent
  | start =>
    rw [hnil rfl]
    simp only [step] at hs
    split_ifs at hs with hnew
    cases hs
    exact hp.silent rfl fun hws _ => ⟨hws, by simp [hnew], rfl⟩
  | item raises =>
    rw [hnil rfl]
    simp only [step] at hs
    split_ifs at hs with hw
    split at hs
    · cases hs
    rename_i item rest hq
    by_cases hws : s.ws = true
    · obtain ⟨taken, hgiven, hdata, hsent⟩ := hp.runs hws (by simp [hw])
      rw [hq] at hgiven
      have hspec := taken_sends (s := { s with out_q := rest }) ht hws item raises
      rw [Option.some.inj hs] at hspec
      rcases hspec with ⟨hitem, hsame, ho⟩ | ⟨hdone, ho⟩
      · have hsent' : sentPackets (fs ++ o) = (WSNetworkUDP.asked (taken ++ [item])).map Packet.readdressed := by
          rw [sentPackets_append, hsent, ho, asked_append hdata, asked_cons hitem, List.map_append, List.map_append]
          exact congrArg _ (List.append_nil _).symm
        have hgiven' : given = (taken ++ [item]) ++ rest := by rw [hgiven, List.append_assoc, List.singleton_append]
        have hdata' : ∀ x ∈ taken ++ [item], x.IsData := by
          intro x hx
          rcases List.mem_append.1 hx with hx | hx
          · exact hdata x hx
          · rw [List.mem_singleton.1 hx]
            exact hitem
        refine ⟨?_, fun _ _ => ⟨taken ++ [item], ?_, hdata', hsent'⟩⟩
        · rw [hsent', hgiven', asked_append hdata']
          exact (List.prefix_append ..).map _
        · rw [show s' = _ from hsame]
          exact hgiven'
      · refine ⟨?_, fun _ h => absurd hdone h⟩
        rw [sentPackets_append, hsent, hgiven, asked_append hdata, List.map_append]
        refine (List.prefix_append_right_inj _).2 (ho.trans (List.IsPrefix.map _ ?_))
        by_cases hitem : item.IsData
        · rw [asked_cons hitem, asked_cons hitem]
          exact (List.prefix_append_right_inj _).2 List.nil_prefix
        · rw [asked_of_not_isData hitem]
          exact List.nil_prefix
    · have hlost := taken_of_lost (s := { s with out_q := rest }) (by simpa using hws) item raises
      rw [Option.some.inj hs] at hlost
      obtain ⟨hws', rfl⟩ := hlost
      exact hp.silent rfl fun h => by rw [hws'] at h; cases h
  | cancelled =>
    rw [hnil rfl]
    simp only [step] at hs
    split_ifs at hs
    · cases hs
      exact hp.silent (sentPackets_finish s) fun _ h => absurd rfl h
    · cases hs
      exact hp.silent rfl fun _ h => absurd rfl h
  | terminate =>
    rw [hnil rfl]
    cases hs
    exact hp.silent rfl fun h => by cases h

/-- The agent expects each of the frames. -/
def Expected (token : Bytes) (fs : List Bytes) : Prop :=
  ∀ b ∈ fs, ∃ cmd, CMD.fromBytes b = .ok cmd ∧ Relay.FromOperator token cmd

theorem Expected.append {token : Bytes} {fs fs' : List Bytes} (h : Expected token fs) (h' : Expected token fs') :
    Expected token (fs ++ fs') := fun b hb => (List.mem_append.1 hb).elim (h b) (h' b)

theorem expected_nil {token : Bytes} : Expected token [] := fun b hb => by cases hb

theorem expected_emit (h : Expected s.token fs) : Expected s.token (s.emit fs) := by
  unfold emit
  split
  · exact h
  · exact expected_nil

theorem expected_okFrames {token : Bytes} (ht : token.length = 16) :
    Expected token (WSNETConnection.okFrames token) := by
  obtain ⟨ok, hok, hread⟩ := WSNETConnection.okFrames_eq ht
  rw [hok]
  intro b hb
  rw [List.mem_singleton.1 hb]
  exact ⟨_, hread, rfl⟩

theorem expected_handleOut {token : Bytes} (ht : token.length = 16) (data : Bytes) (addr : String × Int) :
    Expected token (handleOut token data addr).1 := by
  unfold handleOut
  split
  · exact expected_nil
  · intro b hb
    obtain ⟨p, -, hp⟩ := exists_of_mem_frames hb
    exact ⟨_, CMD.fromBytes_SDSRV hp ht rfl, rfl, rfl⟩

theorem taken_expected (ht : s.token.length = 16) (item : Outgoing) (raises : Option Nat) :
    (s.taken item raises).1.token = s.token ∧ Expected s.token (s.taken item raises).2 := by
  have hfinish : Expected s.token s.finish.2 := expected_emit (expected_okFrames ht)
  have hsent : ∀ {data addr sent err}, handleOut s.token data addr = (sent, err) → Expected s.token sent := by
    intro data addr sent err heq
    have h := expected_handleOut ht data addr
    rwa [heq] at h
  fun_cases taken s item raises
  case case1 | case2 | case3 => exact ⟨rfl, hfinish⟩
  case case4 n sent err heq =>
    refine ⟨rfl, (expected_emit fun b hb => ?_).append hfinish⟩
    exact hsent heq b (List.mem_of_mem_take hb)
  case case5 sent err heq => exact ⟨rfl, (expected_emit (hsent heq)).append hfinish⟩
  case case6 sent heq => exact ⟨rfl, expected_emit (hsent heq)⟩

/-- The task keeps its token, and sends what the agent expects. -/
theorem expected_of_step (ht : s.token.length = 16) (hs : s.step e = some (s', o)) :
    s'.token = s.token ∧ Expected s.token o := by
  cases e with
  | put | terminate =>
    cases hs
    exact ⟨rfl, expected_nil⟩
  | start =>
    simp only [step] at hs
    split_ifs at hs
    cases hs
    exact ⟨rfl, expected_nil⟩
  | item raises =>
    simp only [step] at hs
    split_ifs at hs
    split at hs
    · cases hs
    · rename_i item rest hq
      have h := taken_expected (s := { s with out_q := rest }) ht item raises
      rwa [Option.some.inj hs] at h
  | cancelled =>
    simp only [step] at hs
    split_ifs at hs <;> cases hs
    · exact ⟨rfl, expected_emit (expected_okFrames ht)⟩
    · exact ⟨rfl, expected_nil⟩

/-- The task steps, and its loop may end behind the step. -/
def Ran (s : OutTask) (e : OutEvent) (out : OutTask) (o : List Bytes) : Prop :=
  ∃ r, s.step e = some r ∧ ((out, o) = r ∨ (out, o) = (r.1.finish.1, r.2 ++ r.1.finish.2))

theorem Sends.ran (hp : Sends given s fs) (ht : s.token.length = 16) (hs : s.Ran e s' o) :
    Sends (given ++ e.given) s' (fs ++ o) := by
  obtain ⟨⟨r, o'⟩, hstep, heq | heq⟩ := hs
  · cases heq
    exact hp.step ht hstep
  · cases heq
    rw [← List.append_assoc]
    exact (hp.step ht hstep).silent (sentPackets_finish r) fun _ h => absurd rfl h

theorem expected_of_ran (ht : s.token.length = 16) (hs : s.Ran e s' o) : s'.token = s.token ∧ Expected s.token o := by
  obtain ⟨⟨r, o'⟩, hstep, heq | heq⟩ := hs
  · cases heq
    exact expected_of_step ht hstep
  · cases heq
    obtain ⟨htok, ho⟩ := expected_of_step ht hstep
    refine ⟨htok, ho.append ?_⟩
    rw [← htok] at ht ⊢
    exact expected_emit (expected_okFrames ht)

end OutTask

/-! ### What a step of the client does -/

/-- What the user puts into `out_q`. -/
def Event.given : Event → List Outgoing
  | .out e => e.given
  | _ => []

/-- The frames in `internal_in_q`. -/
def pending (s : WSNetworkUDP) : List Bytes := s.internal_in_q.filterMap id

/-- What the user gets for a packet. -/
def item (p : Packet) : Item := .datagram p.readdressed.1 p.readdressed.2.1 p.readdressed.2.2

variable {s s' : WSNetworkUDP} {e : Event} {o fs : List Bytes} {given : List Outgoing}

@[simp] theorem pc_terminated (s : WSNetworkUDP) : s.terminated.pc = s.pc := by unfold terminated; split <;> rfl

@[simp] theorem in_q_terminated (s : WSNetworkUDP) : s.terminated.in_q = s.in_q := by unfold terminated; split <;> rfl

@[simp] theorem pending_terminated (s : WSNetworkUDP) : s.terminated.pending = s.pending := by
  unfold terminated
  split <;> simp [pending]

theorem out_terminated (s : WSNetworkUDP) : s.terminated.out = s.out.terminate ∨
    s.terminated.out = { s.out with ws := false } := by
  unfold terminated
  split
  · exact .inl rfl
  · exact .inr rfl

/-- The outgoing side has given up its websocket, or is as it was. -/
def KeepsOut (out out' : OutTask) : Prop := out' = out ∨ out'.ws = false ∧ out'.token = out.token

theorem keepsOut_terminated (s : WSNetworkUDP) : KeepsOut s.out s.terminated.out := by
  rcases out_terminated s with h | h
  · rw [h]
    exact .inr ⟨rfl, rfl⟩
  · rw [h]
    exact .inr ⟨rfl, rfl⟩

/-- What a step does that is not one of `__handle_out`. -/
structure Calm (s s' : WSNetworkUDP) : Prop where
  ip : s'.ip = s.ip
  port : s'.port = s.port
  out : KeepsOut s.out s'.out
  opening : s.pc ≠ .opening → s'.pc ≠ .opening

theorem calm_finishIn (s : WSNetworkUDP) : Calm s s.finishIn where
  ip := by unfold finishIn terminated; split <;> rfl
  port := by unfold finishIn terminated; split <;> rfl
  out := keepsOut_terminated s
  opening h := by rwa [finishIn, pc_terminated]

theorem calm_loop (s : WSNetworkUDP) : Calm s s.loop := by
  unfold loop
  split
  · exact calm_finishIn s
  · exact ⟨rfl, rfl, .inl rfl, id⟩

theorem calm_fail (s : WSNetworkUDP) : Calm s s.fail := ⟨rfl, rfl, .inl rfl, nofun⟩

theorem Calm.trans {s₁ : WSNetworkUDP} (h : Calm s s₁) (h' : Calm s₁ s') : Calm s s' := by
  refine ⟨h'.ip.trans h.ip, h'.port.trans h.port, ?_, fun hpc => h'.opening (h.opening hpc)⟩
  rcases h.out with h₁ | ⟨hws, htok⟩ <;> rcases h'.out with h₂ | ⟨hws', htok'⟩
  · exact .inl (h₂.trans h₁)
  · exact .inr ⟨hws', by rw [htok', h₁]⟩
  · exact .inr ⟨by rw [h₂, hws], by rw [h₂, htok]⟩
  · exact .inr ⟨hws', htok'.trans htok⟩

/-- The steps. -/
inductive Turn (s : WSNetworkUDP) : Event → WSNetworkUDP → List Bytes → Prop
  | message (data : Bytes) : Turn s (.message data) { s with internal_in_q := s.internal_in_q ++ [some data] } []
  | asks {b : Bytes} (hpc : s.pc = .opening) (hb : s.connectCmd.toBytes = .ok b) :
    Turn s (.opened false) { s with pc := .connecting } (s.out.emit [b])
  | fails {e : Event} (hpc : s.pc = .opening) (he : e.given = []) : Turn s e s.fail []
  | disconnect : Turn s .disconnect { s with disconnected := true } []
  | answered {item : Option Bytes} {rest : List (Option Bytes)} (hq : s.internal_in_q = item :: rest)
    (hpc : s.pc = .connecting) : Turn s .get ({ s with internal_in_q := rest }.answer item) []
  | takes {item : Option Bytes} {rest : List (Option Bytes)} (hq : s.internal_in_q = item :: rest)
    (hpc : s.pc = .connected) (hin : s.in_task.pc = .waiting) :
    Turn s .get ({ s with internal_in_q := rest }.handle_in item) []
  | startIn (hpc : s.pc = .connected) (hin : s.in_task.pc = .created) : Turn s .startIn s.loop []
  | cancelledIn (hpc : s.pc = .connected) : Turn s .cancelledIn s.finishIn []
  | neverIn : Turn s .cancelledIn { s with in_task := { pc := .done } } []
  | out {e : OutEvent} {r : OutTask} {o : List Bytes} (hs : s.out.Ran e r o)
      (hpc : s.pc = .connected ∨ o = []) :
    Turn s (.out e) { s with out := r } o
  | ends {e : OutEvent} {r : OutTask} {o : List Bytes} (hs : s.out.Ran e r o) (hpc : s.pc = .connected) :
    Turn s (.out e) { s with out := r }.endedOut o
  | terminate : Turn s .terminate s.terminated []

theorem turn_of_step (h : s.step e = some (s', o)) : Turn s e s' o := by
  cases e with
  | message data =>
    cases h
    exact .message data
  | opened raises =>
    simp only [step] at h
    split_ifs at h with hpc hr
    · cases h
      exact .fails hpc rfl
    · obtain rfl : raises = false := by simpa using hr
      split at h
      · cases h
        exact .asks hpc ‹_›
      · cases h
        exact .fails hpc rfl
  | timeout =>
    simp only [step] at h
    split_ifs at h with hpc
    cases h
    exact .fails hpc rfl
  | disconnect =>
    cases h
    exact .disconnect
  | get =>
    simp only [step] at h
    split at h
    · cases h
    · rename_i item rest hq
      split_ifs at h with hpc hin
      · cases h
        exact .answered hq hpc
      · cases h
        exact .takes hq hin.1 (by rw [hin.2])
  | startIn =>
    simp only [step] at h
    split_ifs at h with hpc
    cases h
    exact .startIn hpc.1 (by rw [hpc.2])
  | cancelledIn =>
    simp only [step] at h
    split_ifs at h with hpc
    · cases h
      exact .cancelledIn hpc.1
    · cases h
      exact .neverIn
  | terminate =>
    cases h
    exact .terminate
  | out e =>
    have hout : s.pc = .connected → s.runOut e = some (s', o) → Turn s (.out e) s' o := by
      intro hpc h
      obtain ⟨⟨r, o⟩, hloop, heq⟩ := Option.map_eq_some_iff.1 h
      have hs : s.out.Ran e r o := by
        obtain ⟨r', hs, hr⟩ := Option.map_eq_some_iff.1 hloop
        unfold loopOut at hr
        split at hr
        · exact ⟨r', hs, .inr hr.symm⟩
        · exact ⟨r', hs, .inl hr.symm⟩
      split at heq <;> cases heq
      · exact .ends hs hpc
      · exact .out hs (.inl hpc)
    cases e with
    | put item =>
      simp only [step] at h
      obtain ⟨⟨r, o⟩, hs, heq⟩ := Option.map_eq_some_iff.1 h
      cases heq
      cases hs
      exact .out ⟨_, rfl, .inl rfl⟩ (.inr rfl)
    | terminate => cases h
    | start | item | cancelled =>
      simp only [step] at h
      by_cases hpc : s.pc = .connected
      · rw [if_pos hpc] at h
        exact hout hpc h
      · rw [if_neg hpc] at h
        cases h

theorem KeepsOut.sends {out out' : OutTask} (h : KeepsOut out out') (hp : out.Sends given fs)
    (ho : sentPackets o = []) : out'.Sends given (fs ++ o) := by
  refine hp.silent ho fun hws hpc => ?_
  rcases h with rfl | ⟨hlost, -⟩
  · exact ⟨hws, hpc, rfl⟩
  · rw [hlost] at hws
    cases hws

theorem calm_answer (s : WSNetworkUDP) (item : Option Bytes) : Calm s (s.answer item) := by
  unfold answer
  split
  · exact calm_fail s
  · split
    · exact ⟨rfl, rfl, .inl rfl, nofun⟩
    · exact calm_fail s

theorem calm_handle_in (s : WSNetworkUDP) (item : Option Bytes) : Calm s (s.handle_in item) := by
  have hput : ∀ i, Calm s (s.put i) := fun i => ⟨rfl, rfl, .inl rfl, id⟩
  unfold handle_in
  split
  · exact calm_finishIn s
  · split
    · exact (hput _).trans (calm_loop _)
    · exact (hput _).trans (calm_finishIn _)

/-- A step is calm and sends at most the CONNECT, or it is one of the outgoing task. -/
theorem calm_or_out (h : s.step e = some (s', o)) :
    (Calm s s' ∧ e.given = [] ∧ (o = [] ∨ s.pc = .opening ∧ s'.pc = .connecting ∧
        ∃ b, s.connectCmd.toBytes = .ok b ∧ o = s.out.emit [b])) ∨
      ∃ e', e = .out e' ∧ s.out.Ran e' s'.out o ∧ (s.pc = .connected ∨ o = []) ∧ s'.pc = s.pc ∧ s'.ip = s.ip ∧
        s'.port = s.port := by
  cases turn_of_step h with
  | message data | disconnect | neverIn => exact .inl ⟨⟨rfl, rfl, .inl rfl, id⟩, rfl, .inl rfl⟩
  | asks hpc hb => exact .inl ⟨⟨rfl, rfl, .inl rfl, nofun⟩, rfl, .inr ⟨hpc, rfl, _, hb, rfl⟩⟩
  | fails hpc he => exact .inl ⟨calm_fail s, he, .inl rfl⟩
  | @answered item rest hq hpc =>
    have htook : Calm s { s with internal_in_q := rest } := ⟨rfl, rfl, .inl rfl, id⟩
    exact .inl ⟨htook.trans (calm_answer _ item), rfl, .inl rfl⟩
  | @takes item rest hq hpc hin =>
    have htook : Calm s { s with internal_in_q := rest } := ⟨rfl, rfl, .inl rfl, id⟩
    exact .inl ⟨htook.trans (calm_handle_in _ item), rfl, .inl rfl⟩
  | startIn hpc hin => exact .inl ⟨calm_loop s, rfl, .inl rfl⟩
  | cancelledIn hpc => exact .inl ⟨calm_finishIn s, rfl, .inl rfl⟩
  | terminate =>
    refine .inl ⟨⟨?_, ?_, keepsOut_terminated s, ?_⟩, rfl, .inl rfl⟩
    · unfold terminated
      split <;> rfl
    · unfold terminated
      split <;> rfl
    · rw [pc_terminated]
      exact id
  | out hs hpc => exact .inr ⟨_, rfl, hs, hpc, rfl, rfl, rfl⟩
  | ends hs hpc => exact .inr ⟨_, rfl, hs, .inl hpc, rfl, rfl, rfl⟩

/-- The client asks for the session once, and then sends what the agent expects. -/
theorem frames_of_step (ht : s.token.length = 16) (hs : s.step e = some (s', o)) :
    s'.connectCmd = s.connectCmd ∧ s'.token = s.token ∧ (s.pc ≠ .opening → s'.pc ≠ .opening) ∧
      (o = [] ∨ (s.pc = .connected ∧ OutTask.Expected s.token o) ∨
        s.pc = .opening ∧ s'.pc = .connecting ∧ sentPackets o = [] ∧
          ∀ b ∈ o, o = [b] ∧ s.connectCmd.toBytes = .ok b) := by
  rcases calm_or_out hs with ⟨hcalm, -, ho⟩ | ⟨e', -, hran, hpc, hpc', hip, hport⟩
  · have htok : s'.token = s.token := by
      rcases hcalm.out with h | h
      · exact congrArg OutTask.token h
      · exact h.2
    refine ⟨by rw [connectCmd, connectCmd, htok, hcalm.ip, hcalm.port], htok, hcalm.opening, ?_⟩
    rcases ho with ho | ⟨hpc, hpc', b, hb, rfl⟩
    · exact .inl ho
    · refine .inr (.inr ⟨hpc, hpc', ?_⟩)
      unfold OutTask.emit
      split
      · refine ⟨sentPackets_of_type hb (by simp [connectCmd, CMD.type]), fun b' hb' => ?_⟩
        rw [List.mem_singleton.1 hb']
        exact ⟨rfl, hb⟩
      · exact ⟨rfl, fun b' hb' => by cases hb'⟩
  · obtain ⟨htok, hexpected⟩ := OutTask.expected_of_ran ht hran
    have htok' : s'.token = s.token := htok
    refine ⟨by rw [connectCmd, connectCmd, htok', hip, hport], htok', fun h => hpc' ▸ h, ?_⟩
    rcases hpc with hpc | rfl
    · exact .inr (.inl ⟨hpc, hexpected⟩)
    · exact .inl rfl

/-- The step lemma of the outgoing side. -/
theorem sends_of_step (hp : s.out.Sends given fs) (ht : s.token.length = 16) (hs : s.step e = some (s', o)) :
    s'.out.Sends (given ++ e.given) (fs ++ o) := by
  rcases calm_or_out hs with ⟨hcalm, hgiven, ho⟩ | ⟨e', rfl, hran, -⟩
  · rw [hgiven, List.append_nil]
    refine hcalm.out.sends hp ?_
    rcases ho with rfl | ⟨-, -, b, hb, rfl⟩
    · rfl
    · unfold OutTask.emit
      split
      · exact sentPackets_of_type hb (by simp [connectCmd, CMD.type])
      · rfl
  · exact hp.ran ht hran

end WSNetworkUDP

end Wsnet.Pyodide
