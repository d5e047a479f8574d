import Wsnet.Agent.TcpServer

/-!
# The life of an accepted connection

`Accepted` is a `TCPServerConnection`, whether it is in the table of its server, and the one `stop` that
`process_incoming` may be in beside `run`. `Turn` lists what a step can do. When `run` ends, the connection is
cleaned up exactly if the peer name could be unpacked and the send of a `stop` has gone through by then
(`cleaned_iff`); what it sends is one opening, data and one close exactly if the end of the peer's stream is
never read and nothing is read behind a `stop` (`signalled_iff`).
-/

namespace Wsnet

/-- An accepted connection and what belongs to it outside. -/
structure Accepted where
  conn : TCPServerConnection
  /-- `agent.server_tcp_connections[token]` has its connection token -/
  entry : Bool := false
  /-- a `stop` that `run` has not called is at its send -/
  stopping : Bool := false
  deriving DecidableEq, Repr

namespace Accepted

inductive Event
  | run (e : TCPServerConnection.Event)
  /-- `process_incoming` calls `stop`, from `handle_write` or to close the server -/
  | stop
  /-- the send of this `stop` returns, or raises -/
  | stopDone (sent : Bool)
  /-- another CONNECT with the token of the server makes the table anew -/
  | reset
  deriving DecidableEq, Repr

def accept (token : Bytes) (peername : Peername) : Accepted := { conn := { token, peername } }

def applyEntry (entry : Bool) : TCPServerConnection.Effect → Bool
  | .register => true
  | .unregister => false
  | .sent _ | .read _ => entry

/-- The connection has become `r.1` and done `r.2`. -/
def put (s : Accepted) (r : TCPServerConnection × List TCPServerConnection.Effect) :
    Accepted × List TCPServerConnection.Effect :=
  ({ s with conn := r.1, entry := r.2.foldl applyEntry s.entry }, r.2)

def step (s : Accepted) : Event → Option (Accepted × List TCPServerConnection.Effect)
  | .run e => (s.conn.step e).map s.put
  | .stop =>
    -- nobody knows the connection before it is in the table
    if s.conn.run = .accepted then none
    else some ({ s with stopping := s.stopping || !s.conn.disconnected }.put s.conn.beginStop)
  | .stopDone sent => if s.stopping then some ({ s with stopping := false }.put (s.conn.endStop sent)) else none
  | .reset => some ({ s with entry := false }, [])

/-! ### What a step does -/

/-- `run` is between its start and its `finally`. -/
def Running (c : TCPServerConnection) : Prop :=
  c.run = .opening ∨ c.run = .reading ∨ ∃ data, c.run = .sendingData data

inductive Turn (s : Accepted) : Event → Accepted → List TCPServerConnection.Effect → Prop
  | opens (ct : Bytes) {host : String} {port : Int} (hrun : s.conn.run = .accepted)
      (hp : s.conn.peername = .pair host port) :
    Turn s (.run (.start ct)) { s with conn := { s.conn with connectiontoken := ct, run := .opening }, entry := true }
      [.register, .sent ⟨s.conn.token, ct, [], host, port⟩]
  | fails (ct : Bytes) (hrun : s.conn.run = .accepted) (hp : ∀ host port, s.conn.peername ≠ .pair host port) :
    Turn s (.run (.start ct))
      { s with conn := { s.conn with connectiontoken := ct, run := .done }, entry := true } [.register]
  | reads (data : Bytes) (hrun : s.conn.run = .reading) :
    Turn s (.run (.read data)) { s with conn := { s.conn with run := .sendingData data } }
      [.read data, .sent ⟨s.conn.token, s.conn.connectiontoken, data, "", 0⟩]
  | loops {e : TCPServerConnection.Event} (hrun : Running s.conn) (he : e = .sent) (hd : s.conn.disconnected = false) :
    Turn s (.run e) { s with conn := { s.conn with run := .reading } } []
  | ends {e : TCPServerConnection.Event} (hrun : Running s.conn) (he : ∀ data, e ≠ .read data)
      (hd : s.conn.disconnected = true) :
    Turn s (.run e) { s with conn := { s.conn with closed := true, run := .done } } []
  | stops {e : TCPServerConnection.Event} (hrun : Running s.conn) (he : ∀ data, e ≠ .read data)
    (hd : s.conn.disconnected = false) :
    Turn s (.run e) { s with conn := { s.conn with disconnected := true, run := .stopping } }
      [.sent s.conn.emptyMessage]
  | stopped {e : TCPServerConnection.Event} (sent : Bool) (hrun : s.conn.run = .stopping)
    (he : e = if sent then .sent else .sendFailed) :
    Turn s (.run e)
      { s with conn := { s.conn with closed := true, run := .done }, entry := s.entry && !sent }
      (if sent then [.unregister] else [])
  | called (hrun : s.conn.run ≠ .accepted) (hd : s.conn.disconnected = false) :
    Turn s .stop { s with conn := { s.conn with disconnected := true }, stopping := true } [.sent s.conn.emptyMessage]
  | calledAgain (hrun : s.conn.run ≠ .accepted) (hd : s.conn.disconnected = true) :
    Turn s .stop { s with conn := { s.conn with closed := true } } []
  | ended (sent : Bool) (hs : s.stopping = true) :
    Turn s (.stopDone sent)
      { s with conn := { s.conn with closed := true }, entry := s.entry && !sent, stopping := false }
      (if sent then [.unregister] else [])
  | reset : Turn s .reset { s with entry := false } []

section Turn
variable {s s' : Accepted} {e : Event} {o : List TCPServerConnection.Effect}

theorem turn_finish {e : TCPServerConnection.Event} (hrun : Running s.conn) (he : ∀ data, e ≠ .read data) :
    Turn s (.run e) (s.put s.conn.finish).1 (s.put s.conn.finish).2 := by
  rw [put, TCPServerConnection.finish, TCPServerConnection.beginStop]
  by_cases hd : s.conn.disconnected = true
  · rw [if_pos hd, if_pos hd]
    exact .ends hrun he hd
  · rw [if_neg hd, if_neg hd]
    exact .stops hrun he (Bool.eq_false_of_not_eq_true hd)

theorem turn_loop (hrun : Running s.conn) : Turn s (.run .sent) (s.put s.conn.loop).1 (s.put s.conn.loop).2 := by
  rw [TCPServerConnection.loop]
  split
  case isTrue => exact turn_finish hrun nofun
  case isFalse hd => exact .loops hrun rfl (Bool.eq_false_of_not_eq_true hd)

theorem put_endStop (s : Accepted) (c : TCPServerConnection) (sent : Bool) : s.put (c.endStop sent) =
    ({ s with conn := { c with closed := true }, entry := s.entry && !sent }, if sent then [.unregister] else []) := by
  cases sent <;> simp [put, TCPServerConnection.endStop, applyEntry]

theorem turn_run {e : TCPServerConnection.Event} {r : TCPServerConnection × List TCPServerConnection.Effect}
    (h : s.conn.step e = some r) : Turn s (.run e) (s.put r).1 (s.put r).2 := by
  revert h
  fun_cases TCPServerConnection.step s.conn e <;> intro h <;> cases h
  · exact .opens _ ‹_› ‹_›
  · exact .fails _ ‹_› ‹_›
  · exact turn_loop (.inl ‹_›)
  · exact turn_finish (.inr (.inr ⟨_, ‹_›⟩)) (by simp)
  · exact turn_loop (.inr (.inr ⟨_, ‹_›⟩))
  · rw [put_endStop]
    exact .stopped true ‹_› rfl
  · exact turn_finish (.inl ‹_›) (by simp)
  · exact turn_finish (.inr (.inr ⟨_, ‹_›⟩)) (by simp)
  · rw [put_endStop]
    exact .stopped false ‹_› rfl
  · exact .reads _ ‹_›
  · exact turn_finish (.inr (.inl ‹_›)) (by simp)
  · exact turn_finish (.inr (.inl (And.left ‹_›))) (by simp)

theorem turn_of_step (h : s.step e = some (s', o)) : Turn s e s' o := by
  cases e with
  | run e =>
    obtain ⟨r, hr, heq⟩ := Option.map_eq_some_iff.1 h
    have hturn := turn_run hr
    rwa [heq] at hturn
  | stop =>
    rw [step] at h
    split at h
    · cases h
    by_cases hd : s.conn.disconnected = true
    · have hstopping : (s.stopping || !s.conn.disconnected) = s.stopping := by rw [hd, Bool.not_true, Bool.or_false]
      rw [hstopping, TCPServerConnection.beginStop, if_pos hd] at h
      cases h
      exact .calledAgain ‹_› hd
    · have hd : s.conn.disconnected = false := Bool.eq_false_of_not_eq_true hd
      have hstopping : (s.stopping || !s.conn.disconnected) = true := by rw [hd, Bool.not_false, Bool.or_true]
      rw [hstopping, TCPServerConnection.beginStop, if_neg (Bool.eq_false_iff.1 hd)] at h
      cases h
      exact .called ‹_› hd
  | stopDone sent =>
    rw [step] at h
    split at h
    · rw [put_endStop] at h
      cases h
      exact .ended sent ‹_›
    · cases h
  | reset =>
    cases h
    exact .reset

end Turn

/-! ### What is left when `run` ends -/

/-- The state before a step, the event and the effects. -/
abbrev Trace := List (Accepted × Event × List TCPServerConnection.Effect)

/-- A step that takes the connection out of the table: the send of a `stop` returns, or the table is made anew. -/
def Removes (x : Accepted × Event × List TCPServerConnection.Effect) : Prop :=
  (x.2.1 = .run .sent ∧ x.1.conn.run = .stopping) ∨ x.2.1 = .stopDone true ∨ (x.2.1 = .reset ∧ x.1.conn.run ≠ .accepted)

structure Cleaned (s : Accepted) : Prop where
  entry : s.entry = false
  disconnected : s.conn.disconnected = true
  closed : s.conn.closed = true

/-- What holds of a connection with this peer name behind the steps `tr`. -/
structure Tracked (peername : Peername) (s : Accepted) (tr : Trace) : Prop where
  name : s.conn.peername = peername
  accepted : s.conn.run = .accepted → s.stopping = false ∧ ∀ x ∈ tr, ¬ Removes x
  entry : s.conn.run ≠ .accepted → (s.entry = true ↔ ∀ x ∈ tr, ¬ Removes x)
  stopping : s.conn.run = .stopping → s.conn.disconnected = true
  stopped : s.stopping = true → s.conn.disconnected = true
  pair : s.conn.run ≠ .accepted → s.conn.run ≠ .done → ∃ host port, peername = .pair host port
  done : s.conn.run = .done → (∃ host port, peername = .pair host port) →
    s.conn.disconnected = true ∧ s.conn.closed = true

section Tracked
variable {s s' : Accepted} {e : Event} {o : List TCPServerConnection.Effect} {tr : Trace} {p : Peername}

theorem Running.ne_accepted {c : TCPServerConnection} (h : Running c) : c.run ≠ .accepted := by
  rcases h with h | h | ⟨data, h⟩ <;> rw [h] <;> nofun

theorem Running.ne_stopping {c : TCPServerConnection} (h : Running c) : c.run ≠ .stopping := by
  rcases h with h | h | ⟨data, h⟩ <;> rw [h] <;> nofun

theorem Running.ne_done {c : TCPServerConnection} (h : Running c) : c.run ≠ .done := by
  rcases h with h | h | ⟨data, h⟩ <;> rw [h] <;> nofun

theorem forall_mem_concat {α : Type} {l : List α} {y : α} {P : α → Prop} :
    (∀ x ∈ l ++ [y], P x) ↔ (∀ x ∈ l, P x) ∧ P y := by
  rw [List.forall_mem_append, List.forall_mem_singleton]

/-- A step of a connection that has started. -/
theorem Tracked.next (h : Tracked p s tr) (hrun : s.conn.run ≠ .accepted) (hrun' : s'.conn.run ≠ .accepted)
    (hname : s'.conn.peername = s.conn.peername) (hentry : s'.entry = true ↔ s.entry = true ∧ ¬ Removes (s, e, o))
    (hstopping : s'.conn.run = .stopping → s'.conn.disconnected = true)
    (hstopped : s'.stopping = true → s'.conn.disconnected = true) (hpair : s'.conn.run ≠ .done → s.conn.run ≠ .done)
    (hdone : s'.conn.run = .done → s.conn.run ≠ .done ∨ s.conn.disconnected = true ∧ s.conn.closed = true →
      s'.conn.disconnected = true ∧ s'.conn.closed = true) : Tracked p s' (tr ++ [(s, e, o)]) where
  name := hname.trans h.name
  accepted hacc := absurd hacc hrun'
  entry _ := by rw [forall_mem_concat, hentry, h.entry hrun]
  stopping := hstopping
  stopped := hstopped
  pair _ hne := h.pair hrun (hpair hne)
  done hend hp := by
    refine hdone hend ?_
    by_cases hdone : s.conn.run = .done
    · exact .inr (h.done hdone hp)
    · exact .inl hdone

theorem Tracked.step (h : Tracked p s tr) (hs : s.step e = some (s', o)) : Tracked p s' (tr ++ [(s, e, o)]) := by
  cases turn_of_step hs with
  | opens ct hrun hp =>
    obtain ⟨hstop, htr⟩ := h.accepted hrun
    refine ⟨h.name, nofun, fun _ => ?_, nofun, fun hs => ?_, fun _ _ => ⟨_, _, h.name.symm.trans hp⟩, nofun⟩
    · rw [forall_mem_concat]
      exact ⟨fun _ => ⟨htr, by simp [Removes, hrun]⟩, fun _ => rfl⟩
    · exact absurd (hstop.symm.trans hs) Bool.false_ne_true
  | fails ct hrun hp =>
    obtain ⟨hstop, htr⟩ := h.accepted hrun
    refine ⟨h.name, nofun, fun _ => ?_, nofun, fun hs => ?_, fun _ hne => absurd rfl hne, fun _ ⟨host, port, heq⟩ => ?_⟩
    · rw [forall_mem_concat]
      exact ⟨fun _ => ⟨htr, by simp [Removes, hrun]⟩, fun _ => rfl⟩
    · exact absurd (hstop.symm.trans hs) Bool.false_ne_true
    · exact absurd (h.name.trans heq) (hp host port)
  | reads data hrun =>
    exact h.next (by rw [hrun]; nofun) nofun rfl (by simp [Removes]) nofun h.stopped
      (fun _ => by rw [hrun]; nofun) nofun
  | loops hrun he hd =>
    exact h.next hrun.ne_accepted nofun rfl (by simp [Removes, hrun.ne_stopping]) nofun h.stopped
      (fun _ => hrun.ne_done) nofun
  | ends hrun he hd =>
    exact h.next hrun.ne_accepted nofun rfl (by simp [Removes, hrun.ne_stopping]) nofun (fun _ => hd)
      (fun _ => hrun.ne_done)
      fun _ _ => ⟨hd, rfl⟩
  | stops hrun he hd =>
    exact h.next hrun.ne_accepted nofun rfl (by simp [Removes, hrun.ne_stopping]) (fun _ => rfl) (fun _ => rfl)
      (fun _ => hrun.ne_done) nofun
  | stopped sent hrun he =>
    have hd := h.stopping hrun
    refine h.next (by rw [hrun]; nofun) nofun rfl ?_ nofun (fun _ => hd) (fun _ => by rw [hrun]; nofun)
      fun _ _ => ⟨hd, rfl⟩
    cases sent <;> simp [Removes, hrun, he]
  | called hrun hd =>
    refine h.next hrun hrun rfl (by simp [Removes]) (fun _ => rfl) (fun _ => rfl) id fun hend hor => ?_
    rcases hor with hne | ⟨hd', -⟩
    · exact absurd hend hne
    · exact absurd (hd.symm.trans hd') Bool.false_ne_true
  | calledAgain hrun hd => exact h.next hrun hrun rfl (by simp [Removes]) (fun _ => hd) h.stopped id fun _ _ =>
      ⟨hd, rfl⟩
  | ended sent hstop =>
    have hrun : s.conn.run ≠ .accepted := fun hrun => absurd ((h.accepted hrun).1.symm.trans hstop) Bool.false_ne_true
    have hd := h.stopped hstop
    refine h.next hrun hrun rfl ?_ (fun _ => hd) (fun _ => hd) id fun _ _ => ⟨hd, rfl⟩
    cases sent <;> simp [Removes]
  | reset =>
    by_cases hrun : s.conn.run = .accepted
    · obtain ⟨hstop, htr⟩ := h.accepted hrun
      refine ⟨h.name, fun _ => ⟨hstop, ?_⟩, absurd hrun, h.stopping, h.stopped, h.pair, h.done⟩
      rw [forall_mem_concat]
      exact ⟨htr, by simp [Removes, hrun]⟩
    · refine h.next hrun hrun rfl (by simp [Removes, hrun]) h.stopping h.stopped id fun hend hor => ?_
      exact hor.resolve_left fun hne => hne hend

theorem tracked_accept (p : Peername) (token : Bytes) : Tracked p (accept token p) [] where
  name := rfl
  accepted _ := ⟨rfl, fun x hx => absurd hx List.not_mem_nil⟩
  entry hne := absurd rfl hne
  stopping h := by simp [accept] at h
  stopped h := by simp [accept] at h
  pair hne := absurd rfl hne
  done h := by simp [accept] at h

theorem tracked_run {token : Bytes} {es : List Event} (h : Run (traced step) (accept token p) es s tr) :
    Tracked p s tr := by
  refine h.invariant (P := fun s tr => Tracked p s tr) (fun hp hs => ?_) (tracked_accept p token)
  obtain ⟨o, hstep, rfl⟩ := Run.of_traced hs
  exact hp.step hstep

theorem cleaned_iff {token : Bytes} {es : List Event} (h : Run (traced step) (accept token p) es s tr)
    (hs : s.step e = some (s', o)) (hrun : s.conn.run ≠ .done) (hend : s'.conn.run = .done) :
    Cleaned s' ↔ (∃ host port, p = .pair host port) ∧ ∃ x ∈ tr ++ [(s, e, o)], Removes x := by
  have htr := (tracked_run h).step hs
  have hentry : s'.entry = false ↔ ∃ x ∈ tr ++ [(s, e, o)], Removes x := by
    have hiff := htr.entry (by rw [hend]; nofun)
    rw [← Bool.not_eq_true, hiff]
    simp only [not_forall, not_not, exists_prop]
  rw [← hentry]
  constructor
  · intro hc
    refine ⟨?_, hc.entry⟩
    refine (tracked_run h).pair (fun hacc => ?_) hrun
    obtain ⟨hstop, hno⟩ := (tracked_run h).accepted hacc
    obtain ⟨x, hx, hrem⟩ := hentry.1 hc.entry
    rcases List.mem_append.1 hx with hx | hx
    · exact hno x hx hrem
    rw [List.mem_singleton.1 hx] at hrem
    rcases hrem with ⟨-, hst⟩ | he | ⟨-, hne⟩
    · cases hacc.symm.trans hst
    · cases he
      simp [step, hstop] at hs
    · exact hne hacc
  · rintro ⟨hp, hfalse⟩
    obtain ⟨hd, hclosed⟩ := htr.done hend hp
    exact ⟨hfalse, hd, hclosed⟩

end Tracked

/-- The peer closes, and every send returns. -/
def peerCloses : List Event := [.run (.start [1]), .run .sent, .run (.read []), .run .sent]

theorem cleaned_iff_peerCloses : ∃ s tr s' o, Run (traced step) (accept [] (.pair "10.0.0.2" 5)) peerCloses s tr ∧
    s.step (.run .sent) = some (s', o) ∧ s'.conn.run = .done ∧ Cleaned s' := by
  have hrun : Run (traced step) (accept [] (.pair "10.0.0.2" 5)) peerCloses
      { conn := ⟨[], [1], .pair "10.0.0.2" 5, .stopping, true, false⟩, entry := true } _ := .of_exec rfl
  refine ⟨_, _, _, _, hrun, rfl, rfl, (cleaned_iff (e := .run .sent) hrun rfl (by decide) rfl).2 ⟨⟨_, _, rfl⟩, ?_⟩⟩
  exact ⟨_, List.mem_append_right _ (List.mem_singleton.2 rfl), .inl ⟨rfl, rfl⟩⟩

/-- `get_extra_info('peername')` is `None`. -/
theorem not_cleaned : ¬ ∀ (p : Peername) (token : Bytes) (es : List Event) (s : Accepted) (tr : Trace) (e : Event)
    (s' : Accepted) (o : List TCPServerConnection.Effect), Run (traced step) (accept token p) es s tr →
    s.step e = some (s', o) → s.conn.run ≠ .done → s'.conn.run = .done → Cleaned s' := by
  intro h
  have hc := h .none [] [] _ [] (.run (.start [1])) _ _ (.nil _) rfl nofun rfl
  cases hc.entry

/-! ### What is sent -/

/-- The messages among the effects of the steps. -/
def frames (tr : Trace) : List WSNServerSocketData :=
  tr.flatMap fun x => x.2.2.filterMap fun
    | .sent c => some c
    | _ => none

def dataMessage (c : TCPServerConnection) (data : Bytes) : WSNServerSocketData :=
  ⟨c.token, c.connectiontoken, data, "", 0⟩

/-- One opening with the address of the peer, data, and one close. -/
def Signalled (c : TCPServerConnection) (host : String) (port : Int) (fs : List WSNServerSocketData) : Prop :=
  ∃ datas : List Bytes, (∀ data ∈ datas, data ≠ []) ∧
    fs = ⟨c.token, c.connectiontoken, [], host, port⟩ :: (datas.map (dataMessage c) ++ [c.emptyMessage])

/-- What the steps have read before the event was set, or behind that. -/
def reads (disconnected : Bool) (tr : Trace) : List Bytes :=
  tr.filterMap fun x =>
    match x.2.1 with
    | .run (.read data) => if x.1.conn.disconnected = disconnected then some data else none
    | _ => none

/-- What has been sent to the peer `(host, port)` behind the steps `tr`. -/
structure Sent (host : String) (port : Int) (s : Accepted) (tr : Trace) : Prop where
  accepted : s.conn.run = .accepted → frames tr = [] ∧ reads false tr = [] ∧ s.conn.disconnected = false
  reads : s.conn.disconnected = false → Accepted.reads true tr = []
  frames : s.conn.run ≠ .accepted → frames tr = ⟨s.conn.token, s.conn.connectiontoken, [], host, port⟩ ::
    ((Accepted.reads false tr).map (dataMessage s.conn) ++
      if s.conn.disconnected then s.conn.emptyMessage :: (Accepted.reads true tr).map (dataMessage s.conn) else [])

section Sent
variable {s s' : Accepted} {e : Event} {o : List TCPServerConnection.Effect} {tr : Trace} {host : String} {port : Int}

@[simp] theorem frames_append (tr tr' : Trace) : frames (tr ++ tr') = frames tr ++ frames tr' := List.flatMap_append

@[simp] theorem reads_append (b : Bool) (tr tr' : Trace) : reads b (tr ++ tr') = reads b tr ++ reads b tr' :=
  List.filterMap_append

theorem reads_of_ne (b : Bool) (h : ∀ data, e ≠ .run (.read data)) : Accepted.reads b [(s, e, o)] = [] := by
  rw [Accepted.reads, List.filterMap_cons_none, List.filterMap_nil]
  split
  case h_1 data heq => exact absurd heq (h data)
  case h_2 => rfl

theorem reads_read (b : Bool) (data : Bytes) : Accepted.reads b [(s, .run (.read data), o)] =
    if s.conn.disconnected = b then [data] else [] := by
  by_cases hd : s.conn.disconnected = b
  · simp [Accepted.reads, hd]
  · simp [Accepted.reads, hd]

theorem dataMessage_congr {c c' : TCPServerConnection} (htoken : c'.token = c.token)
    (hct : c'.connectiontoken = c.connectiontoken) : dataMessage c' = dataMessage c := by
  funext data
  rw [dataMessage, dataMessage, htoken, hct]

/-- A step that reads and sends nothing. -/
theorem Sent.quiet (h : Sent host port s tr) (hframes : Accepted.frames [(s, e, o)] = [])
    (hreads : ∀ data, e ≠ .run (.read data))
    (hacc : s.conn.run ≠ .accepted) (hacc' : s'.conn.run ≠ .accepted) (hd : s'.conn.disconnected = s.conn.disconnected)
    (htoken : s'.conn.token = s.conn.token) (hct : s'.conn.connectiontoken = s.conn.connectiontoken) :
    Sent host port s' (tr ++ [(s, e, o)]) where
  accepted h := absurd h hacc'
  reads hd' := by
    rw [reads_append, reads_of_ne true hreads, List.append_nil]
    exact h.reads (hd ▸ hd')
  frames _ := by
    rw [frames_append, hframes, List.append_nil, reads_append, reads_append, reads_of_ne _ hreads, reads_of_ne _ hreads,
      List.append_nil, List.append_nil, hd, htoken, hct, dataMessage_congr htoken hct, h.frames hacc]
    rw [TCPServerConnection.emptyMessage, TCPServerConnection.emptyMessage, htoken, hct]

/-- The step that sets the event sends the close. -/
theorem Sent.close (h : Sent host port s tr) (hframes : Accepted.frames [(s, e, o)] = [s.conn.emptyMessage])
    (hreads : ∀ data, e ≠ .run (.read data)) (hacc : s.conn.run ≠ .accepted) (hacc' : s'.conn.run ≠ .accepted)
    (hd : s.conn.disconnected = false) (hd' : s'.conn.disconnected = true)
    (htoken : s'.conn.token = s.conn.token) (hct : s'.conn.connectiontoken = s.conn.connectiontoken) :
    Sent host port s' (tr ++ [(s, e, o)]) where
  accepted h := absurd h hacc'
  reads hfalse := absurd (hd'.symm.trans hfalse) Bool.false_ne_true.symm
  frames _ := by
    have hmsg : s'.conn.emptyMessage = s.conn.emptyMessage := by
      rw [TCPServerConnection.emptyMessage, TCPServerConnection.emptyMessage, htoken, hct]
    rw [frames_append, hframes, reads_append, reads_append, reads_of_ne _ hreads, reads_of_ne _ hreads,
      List.append_nil, List.append_nil, hd', if_pos rfl, h.reads hd, hmsg, htoken, hct, dataMessage_congr htoken hct,
      h.frames hacc, hd, if_neg Bool.false_ne_true, List.append_nil]
    rfl

theorem Sent.step (h : Sent host port s tr) (ht : Tracked (.pair host port) s tr) (hs : s.step e = some (s', o)) :
    Sent host port s' (tr ++ [(s, e, o)]) := by
  cases turn_of_step hs with
  | @opens ct host' port' hrun hp =>
    obtain ⟨hnone, hreads, hd⟩ := h.accepted hrun
    cases hp.symm.trans ht.name
    have hr : ∀ b, Accepted.reads b
        (tr ++ [(s, .run (.start ct), [.register, .sent ⟨s.conn.token, ct, [], host, port⟩])]) =
        Accepted.reads b tr := fun b => by
      rw [reads_append, reads_of_ne b (e := .run (.start ct)) nofun, List.append_nil]
    refine ⟨nofun, fun _ => (hr true).trans (h.reads hd), fun _ => ?_⟩
    rw [hr, hr, hreads, frames_append, hnone, hd, if_neg Bool.false_ne_true]
    rfl
  | fails ct hrun hp => exact absurd ht.name (hp host port)
  | reads data hrun =>
    have hacc : s.conn.run ≠ .accepted := by rw [hrun]; nofun
    have hframes := h.frames hacc
    cases hd : s.conn.disconnected with
    | false =>
      rw [hd, if_neg Bool.false_ne_true, List.append_nil] at hframes
      refine ⟨nofun, fun _ => ?_, fun _ => ?_⟩
      · rw [reads_append, h.reads hd]
        simp [Accepted.reads, hd]
      · rw [frames_append, hframes, reads_append, reads_read, if_pos hd, List.map_append]
        simp only [hd, Bool.false_eq_true, if_false, List.append_nil, List.cons_append]
        rfl
    | true =>
      rw [hd, if_pos rfl] at hframes
      refine ⟨nofun, fun hfalse => absurd (hd.symm.trans hfalse) Bool.false_ne_true.symm, fun _ => ?_⟩
      have htrue : ∀ o, Accepted.reads true [(s, .run (.read data), o)] = [data] :=
        fun o => by rw [reads_read, if_pos hd]
      have hfalse : ∀ o, Accepted.reads false [(s, .run (.read data), o)] = [] :=
        fun o => by rw [reads_read, if_neg (by rw [hd]; decide)]
      rw [frames_append, hframes, reads_append, reads_append, htrue, hfalse, List.append_nil]
      simp only [hd, if_true, List.map_append, List.cons_append, List.append_assoc]
      rfl
  | loops hrun he hd =>
    refine h.quiet rfl (fun data heq => ?_) hrun.ne_accepted nofun rfl rfl rfl
    cases he.symm.trans (Event.run.inj heq)
  | ends hrun he hd =>
    exact h.quiet rfl (fun data heq => he data (Event.run.inj heq)) hrun.ne_accepted nofun rfl rfl rfl
  | stops hrun he hd =>
    exact h.close rfl (fun data heq => he data (Event.run.inj heq)) hrun.ne_accepted nofun hd rfl rfl rfl
  | stopped sent hrun he =>
    refine h.quiet (by cases sent <;> rfl) (fun data heq => ?_) (by rw [hrun]; nofun) nofun rfl rfl rfl
    cases sent <;> cases he.symm.trans (Event.run.inj heq)
  | called hrun hd => exact h.close rfl nofun hrun hrun hd rfl rfl rfl
  | calledAgain hrun hd => exact h.quiet rfl nofun hrun hrun rfl rfl rfl
  | ended sent hstop =>
    have hrun : s.conn.run ≠ .accepted := fun hrun => absurd ((ht.accepted hrun).1.symm.trans hstop) Bool.false_ne_true
    exact h.quiet (by cases sent <;> rfl) nofun hrun hrun rfl rfl rfl
  | reset =>
    by_cases hrun : s.conn.run = .accepted
    · obtain ⟨hnone, hreads, hd⟩ := h.accepted hrun
      have hr : ∀ b, Accepted.reads b (tr ++ [(s, .reset, [])]) = Accepted.reads b tr :=
        fun b => by rw [reads_append, reads_of_ne b (e := .reset) nofun, List.append_nil]
      refine ⟨fun _ => ⟨?_, (hr false).trans hreads, hd⟩, fun _ => (hr true).trans (h.reads hd), absurd hrun⟩
      rw [frames_append, hnone]
      rfl
    · exact h.quiet rfl nofun hrun hrun rfl rfl rfl

theorem sent_run {token : Bytes} {es : List Event} (h : Run (traced step) (accept token (.pair host port)) es s tr) :
    Sent host port s tr := by
  refine (h.invariant (P := fun s tr => Tracked (.pair host port) s tr ∧ Sent host port s tr) (fun hp hs => ?_)
    ⟨?_, ?_⟩).2
  · obtain ⟨o, hstep, rfl⟩ := Run.of_traced hs
    exact ⟨hp.1.step hstep, hp.2.step hp.1 hstep⟩
  · exact tracked_accept _ _
  · exact ⟨fun _ => ⟨rfl, rfl, rfl⟩, fun _ => rfl, fun hne => absurd rfl hne⟩

/-- An empty piece ends a list with only one such piece. -/
theorem concat_nil_inj {before after datas : List Bytes} (hdatas : ∀ data ∈ datas, data ≠ [])
    (h : before ++ [] :: after = datas ++ [[]]) : before = datas ∧ after = [] := by
  rcases List.eq_nil_or_concat after with rfl | ⟨after', last, rfl⟩
  · exact ⟨(List.append_inj' h rfl).1, rfl⟩
  · rw [List.concat_eq_append, ← List.cons_append, ← List.append_assoc] at h
    obtain ⟨rfl, -⟩ := List.append_inj' h rfl
    exact absurd rfl (hdatas [] (by simp))

theorem mem_reads {b : Bool} {data : Bytes} : data ∈ reads b tr ↔
    ∃ x ∈ tr, x.2.1 = .run (.read data) ∧ x.1.conn.disconnected = b := by
  rw [Accepted.reads, List.mem_filterMap]
  refine exists_congr fun x => and_congr_right fun _ => ?_
  split
  case h_1 data' heq =>
    rw [heq]
    by_cases hd : x.1.conn.disconnected = b
    · simp [hd]
    · simp [hd]
  case h_2 hne => exact ⟨nofun, fun h => absurd h.1 (hne data)⟩

/-- Nothing empty is read, and nothing behind the event. -/
theorem forall_reads_iff :
    (∀ x ∈ tr, ∀ data, x.2.1 = .run (.read data) → data ≠ [] ∧ x.1.conn.disconnected = false) ↔
      (∀ data ∈ Accepted.reads false tr, data ≠ []) ∧ Accepted.reads true tr = [] := by
  constructor
  · intro hall
    refine ⟨fun data hdata => ?_, List.eq_nil_iff_forall_not_mem.2 fun data hdata => ?_⟩
    · obtain ⟨x, hx, he, -⟩ := mem_reads.1 hdata
      exact (hall x hx data he).1
    · obtain ⟨x, hx, he, hd⟩ := mem_reads.1 hdata
      exact Bool.false_ne_true ((hall x hx data he).2.symm.trans hd)
  · rintro ⟨hne, hnone⟩ x hx data he
    cases hd : x.1.conn.disconnected with
    | false => exact ⟨hne data (mem_reads.2 ⟨x, hx, he, hd⟩), rfl⟩
    | true =>
      have hmem := mem_reads.2 ⟨x, hx, he, hd⟩
      rw [hnone] at hmem
      cases hmem

theorem payloads_map (c : TCPServerConnection) (datas : List Bytes) :
    (datas.map (dataMessage c)).map (·.data) = datas := by
  rw [List.map_map]
  exact List.map_id datas

theorem signalled_iff {token : Bytes} {es : List Event} (h : Run (traced step) (accept token (.pair host port)) es s tr)
    (hend : s.conn.run = .done) : Signalled s.conn host port (frames tr) ↔
      ∀ x ∈ tr, ∀ data, x.2.1 = .run (.read data) → data ≠ [] ∧ x.1.conn.disconnected = false := by
  have hd := ((tracked_run h).done hend ⟨_, _, rfl⟩).1
  have hframes := (sent_run h).frames (by rw [hend]; nofun)
  rw [hd, if_pos rfl] at hframes
  rw [forall_reads_iff, hframes]
  constructor
  · rintro ⟨datas, hdatas, heq⟩
    have hpayloads := congrArg (List.map (·.data)) (List.cons.inj heq).2
    rw [List.map_append, List.map_append, List.map_cons, payloads_map, payloads_map, payloads_map] at hpayloads
    obtain ⟨hbefore, hafter⟩ := concat_nil_inj hdatas hpayloads
    exact ⟨hbefore ▸ hdatas, hafter⟩
  · rintro ⟨hne, hnone⟩
    exact ⟨_, hne, by rw [hnone]; rfl⟩

end Sent

/-- The peer sends a byte, and then `stop` is called from outside. -/
def stoppedHere : List Event := [.run (.start [1]), .run .sent, .run (.read [7]), .run .sent, .stop, .run .cancelled]

theorem signalled_iff_stoppedHere : ∃ s tr, Run (traced step) (accept [] (.pair "10.0.0.2" 5)) stoppedHere s tr ∧
    s.conn.run = .done ∧ Signalled s.conn "10.0.0.2" 5 (frames tr) := by
  have hrun : Run (traced step) (accept [] (.pair "10.0.0.2" 5)) stoppedHere
      { conn := ⟨[], [1], .pair "10.0.0.2" 5, .done, true, true⟩, entry := true, stopping := true } _ := .of_exec rfl
  refine ⟨_, _, hrun, rfl, (signalled_iff hrun rfl).2 (forall_reads_iff.2 ⟨by decide, rfl⟩)⟩

/-- The peer closes: the empty read is sent, and then the close. -/
theorem not_signalled : ¬ ∀ (token : Bytes) (host : String) (port : Int) (es : List Event) (s : Accepted) (tr : Trace),
    Run (traced step) (accept token (.pair host port)) es s tr → .run .sendFailed ∉ es → .stopDone false ∉ es →
    s.conn.run = .done → Signalled s.conn host port (frames tr) := by
  intro h
  have hrun : Run (traced step) (accept [] (.pair "10.0.0.2" 5)) (peerCloses ++ [.run .sent]) _ _ := .of_exec rfl
  obtain ⟨datas, hdatas, heq⟩ := h [] "10.0.0.2" 5 _ _ _ hrun (by decide) (by decide) rfl
  have hpayloads := congrArg (List.map (·.data)) (List.cons.inj heq).2
  rw [List.map_append, payloads_map] at hpayloads
  obtain ⟨-, hafter⟩ := concat_nil_inj hdatas (show [] ++ [] :: [[]] = datas ++ [[]] from hpayloads)
  cases hafter

end Accepted

end Wsnet
