import Mathlib.Logic.Relation
import Wsnet.Agent.TcpOnly

/-!
# One tunnel

`Tunnel` is what there is of one TCP connection between its user and the remote socket: the client's end,
the messages on their way, the session of the agent, and what has gone into and come out of either end.
`Step` is what may happen to it, whatever the other connections do, and `Inv` holds throughout: what comes
out at one end is a prefix of what went in at the other, and all of it once nothing is on its way.
-/

namespace Wsnet

/-- `cmd.data` of a socket data message. -/
def CMD.sd? : CMD → Option Bytes
  | .SD c => some c.data
  | _ => none

/-- What the socket data messages among `cs` carry. -/
def sdData (cs : List CMD) : Bytes := (cs.filterMap CMD.sd?).flatten

section SdData
variable {c : CMD} {cs cs' : List CMD} {d : Bytes}

@[simp] theorem sdData_nil : sdData [] = [] := rfl

@[simp] theorem sdData_append : sdData (cs ++ cs') = sdData cs ++ sdData cs' := by simp [sdData]

theorem sdData_cons : sdData (c :: cs) = c.sd?.getD [] ++ sdData cs := by
  cases h : c.sd? <;> simp [sdData, h]

theorem sdData_eq_nil (h : ∀ m ∈ cs, m.sd? = none) : sdData cs = [] := by
  rw [sdData, List.filterMap_eq_nil_iff.2 h]
  rfl

end SdData

def CMD.IsConnect : CMD → Bool
  | .CONNECT _ => true
  | _ => false

/-- What a session answers. -/
def CMD.IsReply : CMD → Prop
  | .CONTINUE _ | .SD _ | .OK _ | .ERR _ => True
  | _ => False

theorem CMD.IsReply.of_type {m m' : CMD} (hm : m'.IsReply) (h : m.type = m'.type) : m.IsReply := by
  cases m' with
  | CONTINUE | SD | OK | ERR => cases m <;> trivial
  | _ => cases hm

theorem CMD.eq_CONTINUE_of_type {m : CMD} (h : m.type = .CONTINUE) : ∃ c, m = .CONTINUE c := by
  cases m with
  | CONTINUE c => exact ⟨c, rfl⟩
  | _ => cases h

/-- What a stretch of code writes to its socket, and reads from it. -/
def wroteData (os : List Effect) : Bytes := (os.filterMap fun | .wrote d => some d | _ => none).flatten
def readData (os : List Effect) : Bytes := (os.filterMap fun | .read d => some d | _ => none).flatten

namespace TcpClient
variable {s s' : TcpClient} {e : Event} {o : List Effect} {m : CMD}

/-- A call of `transport.send` or of the writer raises. -/
def Event.raises : Event → Bool
  | .main (.sendFailed _) | .dataIn .sendFailed | .dataIn (.writeFailed _) => true
  | _ => false

/-- The remote end has closed, or the session has failed. -/
def Over (s : TcpClient) : Prop := s.main = .sendingOk ∨ s.main = .sendingErr ∨ s.main = .done

/-- The data that `__socket_data_in_handle` has in its hand. -/
def inHand (s : TcpClient) : Bytes :=
  match s.dataIn with
  | .sleeping data => data
  | _ => []

/-- What the session has got for the socket and not written. -/
def pending (s : TcpClient) : Bytes := s.inHand ++ sdData s.inQ

/-- What holds of a session none of whose calls raises. -/
structure Sound (s : TcpClient) : Prop where
  wf : s.Wf
  cancelled : s.cancelled = true → s.main = .done
  writes : s.dataIn ≠ .sendingErr

theorem Sound.step (hp : s.Sound) (hr : e.raises = false) (h : s.step e = some (s', o)) : s'.Sound := by
  refine ⟨hp.wf.step h, ?_, ?_⟩
  case refine_2 =>
    cases e with
    | put c => cases h; exact hp.writes
    | main e => cases mainStep_of_step h <;> first | exact hp.writes | exact nofun
    | dataIn e =>
      cases dataInStep_of_step h with
      | writeFailed exc hc hd => cases hr
      | gotOther c inQ hc hd hq hok hsd => exact hp.writes
      | _ => exact nofun
  cases e with
  | put c => cases h; exact hp.cancelled
  | main e =>
    cases mainStep_of_step h with
    | sentLast hm | sendFailedLast exc hm => exact fun _ => rfl
    | opened hm | openFailed exc hm | sent hm | sendFailed exc hm | wake hm hd | readEof hm | read data hm hd
      | readFailed exc hm =>
      intro hc
      have hdone := hp.cancelled hc
      simp [hdone] at hm
  | dataIn e =>
    cases dataInStep_of_step h with
    | cancelCreated | cancel | gotOk | sent => exact fun h => by cases h
    | _ => exact hp.cancelled

/-- What is written comes from what is pending, and leaves the rest, until the writer is closed. -/
theorem pending_of_step (hp : s.Wf) (hr : e.raises = false) (hput : ∀ c, e ≠ .put c) (h : s.step e = some (s', o)) :
    s'.closed = true ∧ wroteData o = [] ∨ s'.closed = s.closed ∧ wroteData o ++ s'.pending = s.pending := by
  cases e with
  | put c => exact absurd rfl (hput c)
  | main e =>
    refine .inr ?_
    cases mainStep_of_step h with
    | opened hm =>
      have hd : s.dataIn = .none := hp.opening hm
      exact ⟨rfl, by simp [pending, inHand, hd, wroteData]⟩
    | _ => exact ⟨rfl, rfl⟩
  | dataIn e =>
    cases dataInStep_of_step h with
    | writeFailed exc hc hd => cases hr
    | cancel hc hd => exact .inl ⟨rfl, rfl⟩
    | gotOk c inQ hc hd hq => exact .inl ⟨rfl, rfl⟩
    | sent e he hc hd => exact .inl ⟨rfl, rfl⟩
    | cancelCreated hc hd => exact .inr ⟨rfl, by simp [pending, inHand, hd, wroteData]⟩
    | start hc hd => exact .inr ⟨rfl, by simp [pending, inHand, hd, wroteData]⟩
    | drained hc hd => exact .inr ⟨rfl, by simp [pending, inHand, hd, wroteData]⟩
    | wake data hc hd => exact .inr ⟨rfl, by simp [pending, inHand, hd, wroteData]⟩
    | gotData c inQ hc hd hq => exact .inr ⟨rfl, by simp [pending, inHand, hd, hq, wroteData, sdData_cons, CMD.sd?]⟩
    | gotOther c inQ hc hd hq hok hsd =>
      refine .inr ⟨rfl, ?_⟩
      have hc : c.sd? = none := by
        cases c with
        | SD c => exact absurd rfl (hsd c)
        | _ => rfl
      simp [pending, inHand, hq, wroteData, sdData_cons, hc]

/-- A session whose writer is closed writes nothing. -/
theorem wroteData_of_closed (hp : s.Wf) (hcl : s.closed = true) (h : s.step e = some (s', o)) :
    s'.closed = true ∧ wroteData o = [] := by
  have hd : s.dataIn = .done := hp.closed hcl
  cases e with
  | put c => cases h; exact ⟨hcl, rfl⟩
  | main e => cases mainStep_of_step h <;> exact ⟨hcl, rfl⟩
  | dataIn e =>
    cases dataInStep_of_step h with
    | writeFailed exc hc hs => rcases hs with ⟨data, hs⟩ | hs <;> cases hd.symm.trans hs
    | wake data hc hs => cases hd.symm.trans hs
    | _ => exact ⟨by first | rfl | exact hcl, rfl⟩

/-- What is read is sent. -/
theorem sdData_messages (h : s.step e = some (s', o)) : sdData (messages o) = readData o := by
  cases e with
  | put c => cases h; rfl
  | main e => cases mainStep_of_step h <;> rfl
  | dataIn e => cases dataInStep_of_step h <;> rfl

theorem isReply_messages (h : s.step e = some (s', o)) : ∀ m ∈ messages o, m.IsReply := by
  cases e with
  | put c => cases h; exact fun m hm => absurd hm List.not_mem_nil
  | main e => cases mainStep_of_step h <;> simp [messages, fail, finish, CMD.IsReply, continueReply, okReply, errReply]
  | dataIn e => cases dataInStep_of_step h <;> simp [messages, finishDataIn, CMD.IsReply, errReply]

/-- What a session sends has its token, and no more data than a read returns at once. -/
theorem token_of_mem_messages (h : s.step e = some (s', o)) (hm : m ∈ messages o) : m.token = s.token := by
  cases e with
  | put c => cases h; cases hm
  | main e =>
    cases mainStep_of_step h <;> simp_all [messages, fail, finish]
    rfl
  | dataIn e => cases dataInStep_of_step h <;> simp_all [messages, finishDataIn]

theorem data_of_mem_messages {d : WSNSocketData} (h : s.step e = some (s', o)) (hm : .SD d ∈ messages o) :
    e = .main (.read d.data) := by
  cases e with
  | put c => cases h; cases hm
  | main e => cases mainStep_of_step h <;> simp_all [messages, fail, finish, okReply, errReply, continueReply]
  | dataIn e => cases dataInStep_of_step h <;> simp_all [messages, finishDataIn, errReply]

/-- The queue is there before the answer. -/
theorem dataIn_of_step (h : s.step e = some (s', o)) (hd : s.dataIn ≠ .none ∨ ∃ c, .CONTINUE c ∈ messages o) :
    s'.dataIn ≠ .none := by
  cases e with
  | put c =>
    cases h
    exact hd.elim id fun ⟨c, hc⟩ => absurd hc List.not_mem_nil
  | main e =>
    cases mainStep_of_step h <;>
      first
        | exact DataIn.noConfusion
        | simpa [messages, fail, finish, okReply, errReply] using hd
  | dataIn e =>
    cases dataInStep_of_step h <;> simp_all [finishDataIn]

/-- The writer is closed on an OK, or when the session is over, which it stays. -/
theorem closed_of_step (hp : s.Sound) (hr : e.raises = false) (hput : ∀ c, e ≠ .put c) (h : s.step e = some (s', o))
    (hcl : s'.closed = true) : s.closed = true ∨ (∃ c, .OK c ∈ s.inQ) ∨ s'.Over := by
  cases e with
  | put c => exact absurd rfl (hput c)
  | main e => cases mainStep_of_step h <;> exact .inl hcl
  | dataIn e =>
    cases dataInStep_of_step h with
    | gotOk c inQ hc hd hq => exact .inr (.inl ⟨c, by rw [hq]; exact List.mem_cons_self⟩)
    | cancel hc hd => exact .inr (.inr (.inr (.inr (hp.cancelled hc))))
    | writeFailed exc hc hd => cases hr
    | sent e he hc hd => exact absurd hd hp.writes
    | _ => exact .inl hcl

theorem over_of_step (hr : e.raises = false) (h : s.step e = some (s', o)) (ho : s.Over) : s'.Over := by
  cases e with
  | put c => cases h; exact ho
  | main e => rcases ho with ho | ho | ho <;> cases mainStep_of_step h <;> simp_all [Over, fail, finish]
  | dataIn e => cases dataInStep_of_step h <;> exact ho

end TcpClient

/-- The client's end, from the drawing of the token on. -/
structure Tunnel.Client where
  /-- what was put into `out_q`, and what of it the client still has -/
  put : Bytes
  left : Bytes
  /-- the data put into `in_q` -/
  got : Bytes := []
  /-- the token is in the dispatch table -/
  registered : Bool := true
  /-- the CONNECT may still be sent -/
  asking : Bool := true
  /-- the answer was a CONTINUE -/
  continued : Bool := false

structure Tunnel where
  client : Option Tunnel.Client := none
  /-- the client is going to send an OK -/
  okTask : Bool := false
  up : List CMD := []
  /-- the sessions with the token -/
  sessions : List TcpClient := []
  written : Bytes := []
  read : Bytes := []
  down : List CMD := []

namespace Tunnel

open TcpClient (Over)

/-- What the client does without the others. -/
inductive Client.Step (c : Client) : Client → Prop
  | put (b : Bytes) : Step c { c with put := c.put ++ b, left := c.left ++ b }
  | calm (b : Bool) (hb : b = true → c.continued = true) : Step c { c with continued := b }
  | give : Step c { c with asking := false }
  | close (b : Bool) (ha : c.asking = false) : Step c { c with registered := false, continued := b }
  /-- what is done behind the close -/
  | stale (hr : c.registered = false) (left : Bytes) (b : Bool) : Step c { c with left, continued := b }

inductive Step (u : Tunnel) : Tunnel → Prop
  | ask (put : Bytes) (h : u.client = none) : Step u { u with client := some { put, left := put } }
  | client {c c' : Client} (h : u.client = some c) (hc : c.Step c') : Step u { u with client := some c' }
  | connect {c : Client} (h : u.client = some c) (ha : c.asking = true) (hr : c.registered = true) {ms : List CMD}
    (hms : ms = [] ∨ ∃ m, ms = [m] ∧ m.IsConnect = true) :
    Step u { u with client := some { c with asking := false }, up := u.up ++ ms }
  | send {c : Client} (h : u.client = some c) (hr : c.registered = true) (hc : c.continued = true) {ms : List CMD}
    (hms : ∀ m ∈ ms, ∃ d, m = .SD d) {left : Bytes} (hl : c.left = sdData ms ++ left) :
    Step u { u with client := some { c with left }, up := u.up ++ ms }
  | take {c : Client} (h : u.client = some c) (hr : c.registered = true) {m : CMD} {rest : List CMD}
      (hd : u.down = m :: rest)
    {b : Bool} (hb : b = true → c.continued = true ∨ ∃ m', m = .CONTINUE m') :
    Step u { u with client := some { c with got := c.got ++ m.sd?.getD [], continued := b }, down := rest }
  | drop (h : ∀ c, u.client = some c → c.registered = false) {m : CMD} {rest : List CMD} (hd : u.down = m :: rest) :
    Step u { u with okTask := true, down := rest }
  | ok (h : u.okTask = true) (b : Bool) {ms : List CMD} (hms : ∀ m ∈ ms, ∃ c, m = .OK c) :
    Step u { u with okTask := b, up := u.up ++ ms }
  /-- the agent makes a session -/
  | create {m : CMD} {rest : List CMD} (hu : u.up = m :: rest) (hm : m.IsConnect = true) (token : Bytes) (full : Bool) :
    Step u { u with up := rest, sessions := u.sessions ++ [{ token, full }] }
  | deliver {m : CMD} {rest : List CMD} (hu : u.up = m :: rest) {pre post : List TcpClient} {tc : TcpClient}
    (hs : u.sessions = pre ++ tc :: post) :
    Step u { u with up := rest, sessions := pre ++ { tc with inQ := tc.inQ ++ [m] } :: post }
  /-- the agent has no queue for the message, and may complain -/
  | refuse {m : CMD} {rest : List CMD} (hu : u.up = m :: rest) (hm : m.IsConnect = false)
    (hs : ∀ tc, u.sessions = [tc] → tc.dataIn = .none ∨ tc.closed = true) {ms : List CMD}
    (hms : ∀ m ∈ ms, ∃ c, m = .ERR c) :
    Step u { u with up := rest, down := u.down ++ ms }
  | session {pre post : List TcpClient} {tc tc' : TcpClient} (hs : u.sessions = pre ++ tc :: post) {e : TcpClient.Event}
    {os : List Effect} (hr : e.raises = false) (hput : ∀ c, e ≠ .put c) (h : tc.step e = some (tc', os)) {ms : List CMD}
    (hms : ∀ m ∈ ms, ∃ m' ∈ messages os, m.type = m'.type) (hsd : sdData ms = sdData (messages os)) :
    Step u { u with
      sessions := pre ++ tc' :: post, written := u.written ++ wroteData os, read := u.read ++ readData os,
      down := u.down ++ ms }

/-- The agent has opened the connection. -/
def Continued (u : Tunnel) : Prop := ∃ tc ∈ u.sessions, tc.dataIn ≠ .none

/-- The client has left, and may tell the agent so. -/
def Left (u : Tunnel) : Prop := ∃ c, u.client = some c ∧ c.registered = false

/-- All that is on its way to the socket. -/
def ahead (u : Tunnel) : Bytes := (u.sessions.map TcpClient.pending).flatten ++ sdData u.up

/-- The CONNECTs that were or may still be sent. -/
def asks (u : Tunnel) : Nat :=
  u.up.countP CMD.IsConnect + u.sessions.length + if u.client.any (·.asking) then 1 else 0

/-- The connection is opened once, and data are sent behind the answer. -/
structure Order (u : Tunnel) : Prop where
  idle : u.client = none → u = {}
  asks : u.asks ≤ 1
  sound : ∀ tc ∈ u.sessions, tc.Sound
  reply : ∀ m ∈ u.down, m.IsReply
  data : ∀ d, .SD d ∈ u.up → u.Continued
  answer : ∀ c, .CONTINUE c ∈ u.down → u.Continued
  continued : ∀ c, u.client = some c → c.registered = true → c.continued = true → u.Continued

/-- As long as the client has not left, the writer is closed only when the session is over. -/
structure Ends (u : Tunnel) : Prop where
  okTask : u.okTask = true → u.Left
  ok : ∀ c, .OK c ∈ u.up → u.Left
  okPut : ∀ tc ∈ u.sessions, ∀ c, .OK c ∈ tc.inQ → u.Left
  closed : ∀ tc ∈ u.sessions, tc.closed = true → tc.Over ∨ u.Left

/-- What comes out is a prefix of what went in, and what is on its way comes next. -/
structure Streams (u : Tunnel) : Prop where
  written : ∀ c, u.client = some c → u.written <+: c.put
  ahead : ∀ c, u.client = some c → (∀ tc ∈ u.sessions, tc.closed = false) → u.written ++ u.ahead <+: c.put
  left : ∀ c, u.client = some c → (∀ tc ∈ u.sessions, tc.closed = false) → c.registered = true →
    u.written ++ u.ahead ++ c.left = c.put
  got : ∀ c, u.client = some c → c.got <+: u.read
  down : ∀ c, u.client = some c → c.registered = true → c.got ++ sdData u.down = u.read

section Inv
variable {u u' : Tunnel} {c c' : Client}

theorem Client.Step.registered (h : c.Step c') (hr : c'.registered = true) : c.registered = true := by
  cases h with
  | close => cases hr
  | _ => exact hr

theorem Client.Step.asking (h : c.Step c') (ha : c'.asking = true) : c.asking = true := by
  cases h with
  | give => cases ha
  | _ => exact ha

theorem Client.Step.continued (h : c.Step c') (hr : c'.registered = true) (hc : c'.continued = true) :
    c.continued = true := by
  cases h with
  | put | give => exact hc
  | calm b hb => exact hb hc
  | close => cases hr
  | stale hr' => cases hr'.symm.trans hr

theorem Order.only (h : u.Order) {pre post : List TcpClient} {tc : TcpClient} (hs : u.sessions = pre ++ tc :: post) :
    pre = [] ∧ post = [] := by
  have hlen := h.asks
  simp only [Tunnel.asks, hs, List.length_append, List.length_cons] at hlen
  exact ⟨List.length_eq_zero_iff.1 (by omega), List.length_eq_zero_iff.1 (by omega)⟩

theorem Left.client (hl : u.Left) (h : u.client = some c) (hc : c.Step c') : Left { u with client := some c' } := by
  obtain ⟨c₀, hc₀, hr⟩ := hl
  cases h.symm.trans hc₀
  refine ⟨c', rfl, ?_⟩
  by_contra hr'
  rw [hc.registered (by simpa using hr')] at hr
  cases hr

/-- Nothing moves before the client has asked. -/
theorem Order.active (h : u.Order) (hne : u.up ≠ [] ∨ u.sessions ≠ [] ∨ u.down ≠ [] ∨ u.okTask = true) :
    u.client ≠ none := by
  intro hn
  rw [h.idle hn] at hne
  simp at hne

theorem Order.step (h : u.Order) (hs : u.Step u') : u'.Order := by
  cases hs with
  | ask put hn =>
    rw [h.idle hn]
    constructor <;> simp [Tunnel.asks]
  | @client c c' hc hstep =>
    refine { h with idle := nofun, asks := ?_, continued := ?_ }
    · have ha := h.asks
      simp only [Tunnel.asks, hc, Option.any_some] at ha ⊢
      by_cases ha' : c'.asking = true
      · simpa only [ha', hstep.asking ha'] using ha
      · rw [if_neg ha']
        omega
    · rintro _ ⟨⟩ hr hcont
      exact h.continued c hc (hstep.registered hr) (hstep.continued hr hcont)
  | @connect c hc ha hr ms hms =>
    refine { h with idle := nofun, asks := ?_, data := fun d hd => ?_, continued := ?_ }
    · have hle := h.asks
      simp only [Tunnel.asks, hc, Option.any_some, ha, if_true] at hle
      rcases hms with rfl | ⟨m, rfl, hm⟩ <;> simp [Tunnel.asks, *] <;> omega
    · refine h.data d ((List.mem_append.1 hd).resolve_right fun hd => ?_)
      rcases hms with rfl | ⟨m, rfl, hm⟩
      · cases hd
      · rw [← List.mem_singleton.1 hd] at hm
        cases hm
    · rintro _ ⟨⟩ hr hcont
      exact h.continued c hc hr hcont
  | @send c hc hr hcont ms hms left hl =>
    have hopen : u.Continued := h.continued c hc hr hcont
    refine { h with idle := nofun, asks := ?_, data := fun _ _ => hopen, continued := fun _ _ _ _ => hopen }
    have hle := h.asks
    have hcount : ms.countP CMD.IsConnect = 0 := by
      rw [List.countP_eq_zero]
      intro m hm
      obtain ⟨d, rfl⟩ := hms m hm
      nofun
    simpa [Tunnel.asks, hc, hcount] using hle
  | @take c hc hr m rest hd b hb =>
    have hmem : ∀ m' ∈ rest, m' ∈ u.down := fun m' hm' => by rw [hd]; exact List.mem_cons_of_mem m hm'
    refine { h with
      idle := nofun, asks := ?_, reply := fun m' hm' => h.reply m' (hmem m' hm'),
      answer := fun c hc => h.answer c (hmem _ hc), continued := ?_ }
    · simpa [Tunnel.asks, hc] using h.asks
    · rintro _ ⟨⟩ hr' hcont
      rcases hb hcont with hcont | ⟨m', rfl⟩
      · exact h.continued c hc hr hcont
      · exact h.answer m' (by rw [hd]; exact List.mem_cons_self)
  | @drop hc m rest hd =>
    have hmem : ∀ m' ∈ rest, m' ∈ u.down := fun m' hm' => by rw [hd]; exact List.mem_cons_of_mem m hm'
    exact { h with
      idle := fun hn => absurd hn (h.active (by simp [hd])), reply := fun m' hm' => h.reply m' (hmem m' hm'),
      answer := fun c hc => h.answer c (hmem _ hc) }
  | @ok hok b ms hms =>
    refine { h with idle := fun hn => absurd hn (h.active (by simp [hok])), asks := ?_, data := fun d hd => ?_ }
    · have hcount : ms.countP CMD.IsConnect = 0 := by
        rw [List.countP_eq_zero]
        intro m hm
        obtain ⟨d, rfl⟩ := hms m hm
        nofun
      simpa [Tunnel.asks, hcount] using h.asks
    · refine h.data d ((List.mem_append.1 hd).resolve_right fun hd => ?_)
      obtain ⟨c, hc⟩ := hms _ hd
      cases hc
  | @create m rest hu hm token full =>
    have hle := h.asks
    simp only [Tunnel.asks, hu, List.countP_cons, hm, if_true] at hle
    have hnil : u.sessions = [] := List.length_eq_zero_iff.1 (by omega)
    have hno : ¬ u.Continued := by
      rintro ⟨tc, htc, -⟩
      rw [hnil] at htc
      cases htc
    have hmem : ∀ m' ∈ rest, m' ∈ u.up := fun m' hm' => by rw [hu]; exact List.mem_cons_of_mem m hm'
    refine ⟨fun hn => absurd hn (h.active (by simp [hu])), ?_, fun tc htc => ?_, h.reply,
      fun d hd => absurd (h.data d (hmem _ hd)) hno, fun c hc => absurd (h.answer c hc) hno,
      fun c hc hr hcont => absurd (h.continued c hc hr hcont) hno⟩
    · simp only [Tunnel.asks, List.length_append, List.length_singleton]
      omega
    · rw [hnil, List.nil_append, List.mem_singleton] at htc
      subst htc
      exact ⟨⟨fun _ => rfl, nofun, nofun⟩, nofun, nofun⟩
  | @deliver m rest hu pre post tc hsess =>
    obtain ⟨rfl, rfl⟩ := h.only hsess
    have hmem : ∀ m' ∈ rest, m' ∈ u.up := fun m' hm' => by rw [hu]; exact List.mem_cons_of_mem m hm'
    have hcont : u.Continued → Continued { u with up := rest, sessions := [{ tc with inQ := tc.inQ ++ [m] }] } := by
      rintro ⟨tc', htc', hd⟩
      rw [hsess, List.nil_append, List.mem_singleton] at htc'
      subst htc'
      exact ⟨_, List.mem_singleton_self _, hd⟩
    refine ⟨fun hn => absurd hn (h.active (by simp [hu])), ?_, fun tc' htc' => ?_, h.reply,
      fun d hd => hcont (h.data d (hmem _ hd)), fun c hc => hcont (h.answer c hc),
      fun c hc hr hco => hcont (h.continued c hc hr hco)⟩
    · have hle := h.asks
      simp only [Tunnel.asks, hu, List.countP_cons, hsess, List.nil_append, List.length_singleton] at hle ⊢
      omega
    · rw [List.nil_append, List.mem_singleton] at htc'
      subst htc'
      obtain ⟨⟨h1, h2, h3⟩, h4, h5⟩ := h.sound tc (by rw [hsess]; exact List.mem_singleton_self _)
      exact ⟨⟨h1, h2, h3⟩, h4, h5⟩
  | @refuse m rest hu hm hsess ms hms =>
    have hmem : ∀ m' ∈ rest, m' ∈ u.up := fun m' hm' => by rw [hu]; exact List.mem_cons_of_mem m hm'
    refine { h with
      idle := fun hn => absurd hn (h.active (by simp [hu])), asks := ?_, reply := fun m' hm' => ?_,
      data := fun d hd => h.data d (hmem _ hd), answer := fun c hc => ?_ }
    · have hle := h.asks
      simp only [Tunnel.asks, hu, List.countP_cons] at hle ⊢
      omega
    · rcases List.mem_append.1 hm' with hm' | hm'
      · exact h.reply m' hm'
      · obtain ⟨c, rfl⟩ := hms m' hm'
        trivial
    · refine h.answer c ((List.mem_append.1 hc).resolve_right fun hc => ?_)
      obtain ⟨c', hc'⟩ := hms _ hc
      cases hc'
  | @session pre post tc tc' hsess e os hr hput hstep ms hms hsd =>
    obtain ⟨rfl, rfl⟩ := h.only hsess
    rw [List.nil_append] at hsess
    have hcont : u.Continued → tc'.dataIn ≠ .none := by
      rintro ⟨tc₀, htc₀, hd⟩
      rw [hsess, List.mem_singleton] at htc₀
      subst htc₀
      exact TcpClient.dataIn_of_step hstep (.inl hd)
    refine ⟨fun hn => absurd hn (h.active (by simp [hsess])), ?_, fun tc₀ htc₀ => ?_, fun m hm => ?_,
      fun d hd => ⟨tc', by simp, hcont (h.data d hd)⟩, fun c hc => ⟨tc', by simp, ?_⟩,
      fun c hc hr hco => ⟨tc', by simp, hcont (h.continued c hc hr hco)⟩⟩
    · simpa [Tunnel.asks, hsess] using h.asks
    · rw [List.nil_append, List.mem_singleton] at htc₀
      subst htc₀
      exact (h.sound tc (by rw [hsess]; exact List.mem_singleton_self _)).step hr hstep
    · rcases List.mem_append.1 hm with hm | hm
      · exact h.reply m hm
      · obtain ⟨m', hm', htype⟩ := hms m hm
        exact (TcpClient.isReply_messages hstep m' hm').of_type htype
    · rcases List.mem_append.1 hc with hc | hc
      · exact hcont (h.answer c hc)
      · obtain ⟨m', hm', htype⟩ := hms _ hc
        obtain ⟨c', rfl⟩ := CMD.eq_CONTINUE_of_type htype.symm
        exact TcpClient.dataIn_of_step hstep (.inr ⟨c', hm'⟩)

/-- One who has left stays away. -/
theorem left_of_step (hs : u.Step u') (hl : u.Left) : u'.Left := by
  obtain ⟨c, hc, hr⟩ := hl
  cases hs with
  | ask put hn => cases hn.symm.trans hc
  | client hc' hstep => exact Left.client ⟨c, hc, hr⟩ hc' hstep
  | connect hc' ha hr' | send hc' hr' | take hc' hr' =>
    cases hc.symm.trans hc'
    cases hr.symm.trans hr'
  | _ => exact ⟨c, hc, hr⟩

theorem Ends.step (h : u.Ends) (ho : u.Order) (hs : u.Step u') : u'.Ends := by
  have hleft : u.Left → u'.Left := left_of_step hs
  have hkeep : (∀ tc ∈ u.sessions, ∀ c, .OK c ∈ tc.inQ → u'.Left) ∧
      ∀ tc ∈ u.sessions, tc.closed = true → tc.Over ∨ u'.Left :=
    ⟨fun tc htc c hc => hleft (h.okPut tc htc c hc), fun tc htc hcl => (h.closed tc htc hcl).imp_right hleft⟩
  cases hs with
  | ask put hn =>
    rw [ho.idle hn]
    constructor <;> simp
  | client hc hstep => exact ⟨fun hok => hleft (h.okTask hok), fun c hc => hleft (h.ok c hc), hkeep.1, hkeep.2⟩
  | @connect c hc ha hr ms hms =>
    refine ⟨fun hok => hleft (h.okTask hok), fun c' hc' => ?_, hkeep.1, hkeep.2⟩
    refine hleft (h.ok c' ((List.mem_append.1 hc').resolve_right fun hc' => ?_))
    rcases hms with rfl | ⟨m, rfl, hm⟩
    · cases hc'
    · rw [← List.mem_singleton.1 hc'] at hm
      cases hm
  | @send c hc hr hcont ms hms left hl =>
    refine ⟨fun hok => hleft (h.okTask hok), fun c' hc' => ?_, hkeep.1, hkeep.2⟩
    refine hleft (h.ok c' ((List.mem_append.1 hc').resolve_right fun hc' => ?_))
    obtain ⟨d, hd⟩ := hms _ hc'
    cases hd
  | take hc hr hd hb => exact ⟨fun hok => hleft (h.okTask hok), fun c hc => hleft (h.ok c hc), hkeep.1, hkeep.2⟩
  | @drop hc m rest hd =>
    refine ⟨fun _ => ?_, h.ok, h.okPut, h.closed⟩
    obtain ⟨c, hc'⟩ := Option.ne_none_iff_exists'.1 (ho.active (by simp [hd]))
    exact ⟨c, hc', hc c hc'⟩
  | ok hok b hms => exact ⟨fun _ => h.okTask hok, fun _ _ => h.okTask hok, h.okPut, h.closed⟩
  | @create m rest hu hm token full =>
    refine ⟨h.okTask, fun c hc => h.ok c (by rw [hu]; exact List.mem_cons_of_mem m hc), fun tc htc c hc => ?_,
      fun tc htc hcl => ?_⟩
    · rcases List.mem_append.1 htc with htc | htc
      · exact h.okPut tc htc c hc
      · rw [List.mem_singleton.1 htc] at hc
        cases hc
    · rcases List.mem_append.1 htc with htc | htc
      · exact h.closed tc htc hcl
      · rw [List.mem_singleton.1 htc] at hcl
        cases hcl
  | @deliver m rest hu pre post tc hsess =>
    obtain ⟨rfl, rfl⟩ := ho.only hsess
    have htc : tc ∈ u.sessions := by rw [hsess]; exact List.mem_singleton_self tc
    refine ⟨h.okTask, fun c hc => h.ok c (by rw [hu]; exact List.mem_cons_of_mem m hc), fun tc' htc' c hc => ?_,
      fun tc' htc' hcl => ?_⟩
    · rw [List.nil_append, List.mem_singleton] at htc'
      subst htc'
      rcases List.mem_append.1 hc with hc | hc
      · exact h.okPut tc htc c hc
      · exact h.ok c (by rw [hu, ← List.mem_singleton.1 hc]; exact List.mem_cons_self)
    · rw [List.nil_append, List.mem_singleton] at htc'
      subst htc'
      exact h.closed tc htc hcl
  | @refuse m rest hu hm hsess ms hms =>
    exact ⟨h.okTask, fun c hc => h.ok c (by rw [hu]; exact List.mem_cons_of_mem m hc), h.okPut, h.closed⟩
  | @session pre post tc tc' hsess e os hr hput hstep ms hms hsd =>
    obtain ⟨rfl, rfl⟩ := ho.only hsess
    have htc : tc ∈ u.sessions := by rw [hsess]; exact List.mem_singleton_self tc
    refine ⟨h.okTask, h.ok, fun tc₀ htc₀ c hc => ?_, fun tc₀ htc₀ hcl => ?_⟩
    · rw [List.nil_append, List.mem_singleton] at htc₀
      subst htc₀
      exact h.okPut tc htc c (TcpClient.mem_inQ_of_step hput hstep hc)
    · rw [List.nil_append, List.mem_singleton] at htc₀
      subst htc₀
      rcases TcpClient.closed_of_step (ho.sound tc htc) hr hput hstep hcl with hcl | ⟨c, hc⟩ | hover
      · exact (h.closed tc htc hcl).imp_left (TcpClient.over_of_step hr hstep)
      · exact .inr (h.okPut tc htc c hc)
      · exact .inl hover

/-- A step that takes nothing in and lets nothing out. -/
theorem Streams.keep (h : u.Streams) (hc : u'.client = u.client) (hw : u'.written = u.written) (hr : u'.read = u.read)
    (hd : sdData u'.down = sdData u.down) (ha : (∀ tc ∈ u'.sessions, tc.closed = false) →
      (∀ tc ∈ u.sessions, tc.closed = false) ∧ u'.ahead = u.ahead) : u'.Streams := by
  constructor
  · rw [hc, hw]; exact h.written
  · rw [hc, hw]
    intro c hcc hcl
    rw [(ha hcl).2]
    exact h.ahead c hcc (ha hcl).1
  · rw [hc, hw]
    intro c hcc hcl
    rw [(ha hcl).2]
    exact h.left c hcc (ha hcl).1
  · rw [hc, hr]; exact h.got
  · rw [hc, hr, hd]; exact h.down

theorem Streams.step (h : u.Streams) (ho : u.Order) (hs : u.Step u') : u'.Streams := by
  cases hs with
  | ask put hn =>
    rw [ho.idle hn]
    constructor <;> simp [Tunnel.ahead]
  | @client c c' hc hstep =>
    cases hstep with
    | put b =>
      refine ⟨?_, ?_, ?_, ?_, ?_⟩ <;> rintro _ ⟨⟩
      · exact (h.written c hc).trans (List.prefix_append _ _)
      · exact fun hcl => (h.ahead c hc hcl).trans (List.prefix_append _ _)
      · exact fun hcl hr => by rw [← h.left c hc hcl hr, ← List.append_assoc]; rfl
      · exact h.got c hc
      · exact h.down c hc
    | calm b hb | give =>
      refine ⟨?_, ?_, ?_, ?_, ?_⟩ <;> rintro _ ⟨⟩
      exacts [h.written c hc, h.ahead c hc, h.left c hc, h.got c hc, h.down c hc]
    | close b ha =>
      refine ⟨?_, ?_, ?_, ?_, ?_⟩ <;> rintro _ ⟨⟩
      exacts [h.written c hc, h.ahead c hc, nofun, h.got c hc, nofun]
    | stale hr left b =>
      refine ⟨?_, ?_, ?_, ?_, ?_⟩ <;> rintro _ ⟨⟩
      · exact h.written c hc
      · exact h.ahead c hc
      · exact fun _ hr' => by cases hr.symm.trans hr'
      · exact h.got c hc
      · exact fun hr' => by cases hr.symm.trans hr'
  | @connect c hc ha hr ms hms =>
    have hms : sdData ms = [] := by
      rcases hms with rfl | ⟨m, rfl, hm⟩
      · rfl
      · cases m <;> first | rfl | cases hm
    have hahead : Tunnel.ahead { u with client := some { c with asking := false }, up := u.up ++ ms } = u.ahead := by
      simp [Tunnel.ahead, hms]
    refine ⟨?_, ?_, ?_, ?_, ?_⟩ <;> rintro _ ⟨⟩
    · exact h.written c hc
    · rw [hahead]; exact h.ahead c hc
    · rw [hahead]; exact h.left c hc
    · exact h.got c hc
    · exact h.down c hc
  | @send c hc hr hcont ms hms left hl =>
    have hahead : Tunnel.ahead { u with client := some { c with left }, up := u.up ++ ms } = u.ahead ++ sdData ms := by
      simp [Tunnel.ahead]
    have hput : (∀ tc ∈ u.sessions, tc.closed = false) → u.written ++ (u.ahead ++ sdData ms) ++ left = c.put := by
      intro hcl
      rw [← h.left c hc hcl hr, hl]
      simp only [List.append_assoc]
    refine ⟨?_, ?_, ?_, ?_, ?_⟩ <;> rintro _ ⟨⟩
    · exact h.written c hc
    · rw [hahead]; exact fun hcl => ⟨left, hput hcl⟩
    · rw [hahead]; exact fun hcl _ => hput hcl
    · exact h.got c hc
    · exact h.down c hc
  | @take c hc hr m rest hd b hb =>
    have hdown : c.got ++ m.sd?.getD [] ++ sdData rest = u.read := by
      rw [← h.down c hc hr, hd, sdData_cons, List.append_assoc]
    refine ⟨?_, ?_, ?_, ?_, ?_⟩ <;> rintro _ ⟨⟩
    exacts [h.written c hc, h.ahead c hc, h.left c hc, ⟨_, hdown⟩, fun _ => hdown]
  | @drop hleft m rest hd =>
    exact ⟨h.written, h.ahead, h.left, h.got, fun c hc hr => by cases hr.symm.trans (hleft c hc)⟩
  | @ok hok b ms hms =>
    have hms : sdData ms = [] := sdData_eq_nil fun m hm => by obtain ⟨c, rfl⟩ := hms m hm; rfl
    exact h.keep rfl rfl rfl rfl fun hcl => ⟨hcl, by simp [Tunnel.ahead, hms]⟩
  | @create m rest hu hm token full =>
    have hsd : m.sd? = none := by cases m <;> first | rfl | cases hm
    refine h.keep rfl rfl rfl rfl fun hcl => ⟨fun tc htc => hcl tc (List.mem_append_left _ htc), ?_⟩
    simp [Tunnel.ahead, hu, sdData_cons, hsd, TcpClient.pending, TcpClient.inHand]
  | @deliver m rest hu pre post tc hsess =>
    obtain ⟨rfl, rfl⟩ := ho.only hsess
    refine h.keep rfl rfl rfl rfl fun hcl => ⟨fun tc' htc' => ?_, ?_⟩
    · rw [hsess, List.nil_append, List.mem_singleton] at htc'
      rw [htc']
      exact hcl { tc with inQ := tc.inQ ++ [m] } (List.mem_singleton_self _)
    · simp [Tunnel.ahead, hu, hsess, sdData_cons, TcpClient.pending, TcpClient.inHand]
  | @refuse m rest hu hm hsess ms hms =>
    have hms : sdData ms = [] := sdData_eq_nil fun m hm => by obtain ⟨c, rfl⟩ := hms m hm; rfl
    refine h.keep rfl rfl rfl (by simp [hms]) fun hcl => ⟨hcl, ?_⟩
    -- data come behind the opening, so that the queue is gone only when the writer is closed
    have hsd : m.sd? = none := by
      cases m with
      | SD d =>
        obtain ⟨tc, htc, hd⟩ := ho.data d (by rw [hu]; exact List.mem_cons_self)
        obtain ⟨pre, post, hpp⟩ := List.append_of_mem htc
        obtain ⟨rfl, rfl⟩ := ho.only hpp
        rcases hsess tc hpp with hnone | hclosed
        · exact absurd hnone hd
        · cases hclosed.symm.trans (hcl tc htc)
      | _ => rfl
    simp [Tunnel.ahead, hu, sdData_cons, hsd]
  | @session pre post tc tc' hsess e os hr hput hstep ms hms hsd =>
    obtain ⟨rfl, rfl⟩ := ho.only hsess
    rw [List.nil_append] at hsess
    have hsound : tc.Sound := ho.sound tc (by rw [hsess]; exact List.mem_singleton_self tc)
    have hall : ∀ tc₀ : TcpClient, tc₀.closed = false → ∀ tc₁ ∈ [tc₀], tc₁.closed = false := fun tc₀ hcl tc₁ htc₁ => by
      rw [List.mem_singleton.1 htc₁]
      exact hcl
    -- the writer was open if it still is, and then what is ahead has moved on
    have hopen : tc'.closed = false → tc.closed = false ∧ wroteData os ++ tc'.pending = tc.pending := by
      intro hcl
      rcases TcpClient.pending_of_step hsound.wf hr hput hstep with ⟨hcl', -⟩ | ⟨hcl', hpend⟩
      · cases hcl.symm.trans hcl'
      · exact ⟨hcl'.symm.trans hcl, hpend⟩
    have hahead : tc'.closed = false →
        u.written ++ wroteData os ++ (tc'.pending ++ sdData u.up) = u.written ++ u.ahead := by
      intro hcl
      simp only [Tunnel.ahead, hsess, List.map_cons, List.map_nil, List.flatten_cons, List.flatten_nil, List.append_nil,
        ← (hopen hcl).2, List.append_assoc]
    refine ⟨fun c hc => ?_, fun c hc hcl => ?_, fun c hc hcl hr' => ?_, fun c hc => ?_, fun c hc hr' => ?_⟩
    · change u.written ++ wroteData os <+: c.put
      rcases TcpClient.pending_of_step hsound.wf hr hput hstep with ⟨-, hnil⟩ | ⟨hcl, hpend⟩
      · rw [hnil, List.append_nil]
        exact h.written c hc
      · cases hcl₀ : tc.closed with
        | true =>
          rw [(TcpClient.wroteData_of_closed hsound.wf hcl₀ hstep).2, List.append_nil]
          exact h.written c hc
        | false =>
          have := h.ahead c hc (by rw [hsess]; exact hall tc hcl₀)
          rw [← hahead (hcl.trans hcl₀)] at this
          exact (List.prefix_append _ _).trans this
    · have hcl' : tc'.closed = false := hcl tc' (by simp)
      have := h.ahead c hc (by rw [hsess]; exact hall tc (hopen hcl').1)
      rw [← hahead hcl'] at this
      simpa [Tunnel.ahead] using this
    · have hcl' : tc'.closed = false := hcl tc' (by simp)
      have := h.left c hc (by rw [hsess]; exact hall tc (hopen hcl').1) hr'
      rw [← hahead hcl'] at this
      simpa [Tunnel.ahead] using this
    · exact (h.got c hc).trans (List.prefix_append _ _)
    · change c.got ++ sdData (u.down ++ ms) = u.read ++ readData os
      rw [sdData_append, hsd, TcpClient.sdData_messages hstep, ← List.append_assoc, h.down c hc hr']

/-- What holds of a tunnel at all times. -/
structure Inv (u : Tunnel) : Prop where
  order : u.Order
  ends : u.Ends
  streams : u.Streams

theorem Inv.init : Inv {} where
  order := by constructor <;> simp [Tunnel.asks]
  ends := by constructor <;> simp
  streams := by constructor <;> simp

/-- Any number of steps. -/
abbrev Steps : Tunnel → Tunnel → Prop := Relation.ReflTransGen Step

theorem Inv.steps (h : u.Inv) (hs : u.Steps u') : u'.Inv := by
  induction hs with
  | refl => exact h
  | tail _ hs ih => exact ⟨ih.order.step hs, ih.ends.step ih.order hs, ih.streams.step ih.order hs⟩

/-- With nothing on its way and both ends open all that went in has come out. -/
theorem Inv.drained (h : u.Inv) (hc : u.client = some c) (hr : c.registered = true)
    (ho : ∀ tc ∈ u.sessions, tc.dataIn ≠ .none → ¬ tc.Over) :
    (u.ahead = [] → c.left = [] → u.written = c.put) ∧ (sdData u.down = [] → c.got = u.read) := by
  have hopen : ∀ tc ∈ u.sessions, tc.closed = false := by
    intro tc htc
    by_contra hcl
    rw [Bool.not_eq_false] at hcl
    rcases h.ends.closed tc htc hcl with hover | ⟨c', hc', hr'⟩
    · have hdone : tc.dataIn = .done := (h.order.sound tc htc).wf.closed hcl
      exact ho tc htc (by rw [hdone]; nofun) hover
    · cases hc.symm.trans hc'
      cases hr.symm.trans hr'
  constructor
  · intro hahead hleft
    have hput := h.streams.left c hc hopen hr
    rwa [hahead, hleft, List.append_nil, List.append_nil] at hput
  · intro hdown
    have hread := h.streams.down c hc hr
    rwa [hdown, List.append_nil] at hread

end Inv

end Tunnel

end Wsnet
