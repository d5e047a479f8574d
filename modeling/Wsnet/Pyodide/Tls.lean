import Wsnet.Pyodide.Closing
import Wsnet.Pyodide.Handshake

/-!
# A connection with TLS

The TLS object stands between the application and the tunnel: `connection_handler_in_ssl` feeds it the records
of the stream that comes, `connection_handler_out_ssl` gives it what the application writes and sends what it has
left in `tls_out_buff`. Its calls are events here, with what they return and what they write. The control of the
two handlers is the one of `Closing`, but that the end of the out handler sends an `OK` first. `transparent` says
that the tunnel adds nothing, loses nothing and changes no order in either direction.
-/

namespace Wsnet.Pyodide.WSNETConnection
open WSNETTransport

/-- A connection behind its handshake. -/
structure TlsSide where
  token : Bytes
  conn : Closing := {}
  /-- `buffer` of `connection_handler_in_ssl` -/
  buffer : Bytes
  tls_out_buff : Bytes := []
  deriving DecidableEq, Repr

inductive TlsEvent
  | arrives (frame : Bytes)
  | disconnected
  | call (c : Call)
  | close
  | closeTask
  | start (h : Handler)
  | cancelled (h : Handler)
  /-- `connection_handler_in_ssl` takes a frame; its inner loop gets `n` tests, and the calls of `tls_obj.read`
  write `out`. It raises when one of them does or when the protocol does. -/
  | message (n : Nat) (reads : TlsReads) (out : Bytes)
  /-- `connection_handler_out_ssl` takes an item; `tls_obj.write` writes `out`, and raises or does not; `raises`:
  the send raises -/
  | item (written : Except PyErr Unit) (out : Bytes) (raises : Bool)
  deriving Repr

/-- What the connection does to the TLS object, the websocket and the protocol. -/
inductive TlsOutput
  /-- `tls_in_buff.write` -/
  | fed (record : Bytes)
  /-- `tls_obj.write` -/
  | wrote (data : Bytes)
  /-- a call of the TLS object puts this into `tls_out_buff` -/
  | produced (out : Bytes)
  | sent (frame : Bytes)
  | told (c : Callback)
  deriving DecidableEq, Repr

/-- The blocks that the calls of `tls_obj.read` return. -/
def TlsReads.blocks : TlsReads → List Bytes
  | .wantRead blocks => blocks
  | .raises blocks _ => blocks

/-- `self.protocol.data_received(decdata)` for each of the blocks. -/
def TlsReads.told (reads : TlsReads) : List TlsOutput := reads.blocks.map fun b => .told (.data_received (.bytes b))

namespace TlsSide

/-- What one of the steps of `Closing` does. -/
def control (s : TlsSide) (e : CloseEvent) : Option (TlsSide × List TlsOutput) :=
  (s.conn.step e).map fun r => ({ s with conn := r.1 }, r.2.map .told)

/-- The `finally` block of a handler, and its end. -/
def finish (s : TlsSide) : Handler → TlsSide × List TlsOutput
  | .handlerIn => ({ s with conn := (s.conn.finish .handlerIn).1 }, (s.conn.finish .handlerIn).2.map .told)
  | .handlerOut => ({ s with conn := (s.conn.finish .handlerOut).1 },
      (okFrames s.token).map .sent ++ (s.conn.finish .handlerOut).2.map .told)

/-- A handler at the head of its loop. -/
def loop (s : TlsSide) (h : Handler) : TlsSide × List TlsOutput :=
  if s.conn.disconnected_evt then s.finish h else ({ s with conn := s.conn.setTask h { pc := .waiting } }, [])

/-- Some outputs, and then what `r` does. -/
def after (o : List TlsOutput) (r : TlsSide × List TlsOutput) : TlsSide × List TlsOutput := (r.1, o ++ r.2)

/-- `connection_handler_in_ssl` with a frame it has taken, `none` when its inner loop has not ended in time. -/
def received (s : TlsSide) (frame : Bytes) (n : Nat) (reads : TlsReads) (out : Bytes) :
    Option (TlsSide × List TlsOutput) :=
  match messageData frame with
  | .error _ => some (s.finish .handlerIn)
  | .ok data =>
    if (s.buffer ++ data).length < 5 then some ({ s with buffer := s.buffer ++ data }.loop .handlerIn)
    else
      (feed n (s.buffer ++ data)).map fun r =>
        -- the loop around `tls_obj.read` is not entered when the connection is closed
        if s.conn.disconnected_evt then after (r.1.map .fed) ({ s with buffer := r.2 }.loop .handlerIn)
        else
          after (r.1.map .fed ++ .produced out :: reads.told)
            (match reads with
            | .wantRead _ => { s with buffer := r.2, tls_out_buff := s.tls_out_buff ++ out }.loop .handlerIn
            | .raises _ _ => { s with buffer := r.2, tls_out_buff := s.tls_out_buff ++ out }.finish .handlerIn)

/-- The `while` loop that sends what is in `tls_out_buff`, and what follows it. -/
def drain (s : TlsSide) (raises : Bool) : TlsSide × List TlsOutput :=
  if s.conn.disconnected_evt ∨ s.tls_out_buff = [] then s.loop .handlerOut
  else
    match (CMD.SD ⟨s.token, s.tls_out_buff⟩).toBytes with
    | .error _ => { s with tls_out_buff := [] }.finish .handlerOut
    | .ok frame =>
      if raises then { s with tls_out_buff := [] }.finish .handlerOut
      else after [.sent frame] ({ s with tls_out_buff := [] }.loop .handlerOut)

/-- `connection_handler_out_ssl` with an item it has taken. -/
def taken (s : TlsSide) (item : Option Bytes) (written : Except PyErr Unit) (out : Bytes) (raises : Bool) :
    TlsSide × List TlsOutput :=
  match item with
  | none => s.finish .handlerOut
  | some [] => s.finish .handlerOut
  | some data =>
    after [.wrote data, .produced out]
      (match written with
      | .error _ => { s with tls_out_buff := s.tls_out_buff ++ out }.finish .handlerOut
      | .ok () => { s with tls_out_buff := s.tls_out_buff ++ out }.drain raises)

def step (s : TlsSide) : TlsEvent → Option (TlsSide × List TlsOutput)
  | .arrives frame => s.control (.arrives frame)
  | .disconnected => s.control .disconnected
  | .call c => s.control (.call c)
  | .close => s.control .close
  | .closeTask => s.control .closeTask
  | .start h => if s.conn.task h = {} then some (s.loop h) else none
  | .cancelled h =>
    if (s.conn.task h).cancelled then
      if (s.conn.task h).pc = .waiting then some (s.finish h)
      else some ({ s with conn := s.conn.setTask h { pc := .done } }, [])
    else none
  | .message n reads out =>
    if s.conn.conn_in_task = { pc := .waiting } then
      match s.conn.internal_in_q with
      | [] => none
      | frame :: rest => { s with conn := { s.conn with internal_in_q := rest } }.received frame n reads out
    else none
  | .item written out raises =>
    if s.conn.conn_out_task = { pc := .waiting } then
      match s.conn.out_q with
      | [] => none
      | item :: rest => some ({ s with conn := { s.conn with out_q := rest } }.taken item written out raises)
    else none

end TlsSide

/-- `connect` creates the two handlers when the handshake has returned. -/
def Handshake.established (s : Handshake) : TlsSide where
  token := s.token
  conn := { disconnected_evt := s.disconnected, internal_in_q := s.q.map Prod.fst }
  buffer := s.rest
  tls_out_buff := s.tls_out_buff

def fedOf (os : List TlsOutput) : List Bytes :=
  os.filterMap fun
    | .fed record => some record
    | _ => none

def wroteOf (os : List TlsOutput) : List Bytes :=
  os.filterMap fun
    | .wrote data => some data
    | _ => none

def producedOf (os : List TlsOutput) : Bytes :=
  os.flatMap fun
    | .produced out => out
    | _ => []

def sentOf (os : List TlsOutput) : List Bytes :=
  os.filterMap fun
    | .sent frame => some frame
    | _ => none

def arrivedOf (es : List TlsEvent) : List Bytes :=
  es.filterMap fun
    | .arrives frame => some frame
    | _ => none

def itemsOf (es : List TlsEvent) : List (Option Bytes) :=
  es.filterMap fun
    | .call c => some c.item
    | _ => none

/-- What the frames bring; one that ends the tunnel brings nothing. -/
def brought (frames : List Bytes) : Bytes := frames.flatMap fun f => (messageData f).toOption.getD []

@[simp] theorem brought_append (fs gs : List Bytes) : brought (fs ++ gs) = brought fs ++ brought gs :=
  List.flatMap_append

theorem brought_cons {f d : Bytes} (h : messageData f = .ok d) (fs : List Bytes) :
    brought (f :: fs) = d ++ brought fs := by
  simp [brought, h, Except.toOption]

theorem brought_error {f : Bytes} {e : PyErr} (h : messageData f = .error e) (fs : List Bytes) :
    brought (f :: fs) = brought fs := by
  simp [brought, h, Except.toOption]

/-! ### The handshake -/

/-- All the messages carry data. -/
def AllData (q : Inbox) : Prop := ∀ m ∈ q, ∃ d, messageData m.1 = .ok d

theorem AllData.append_iff {q q' : Inbox} : AllData (q ++ q') ↔ AllData q ∧ AllData q' := by
  simp only [AllData, List.mem_append, or_imp, forall_and]

/-- A stretch of `do_handshake`: as long as the messages it takes carry data, the records it takes off the stream are
fed to the TLS object; `out`, which that has written, is sent or still to be sent. -/
structure Handshake.Goes (s s' : Handshake) (out : Bytes) : Prop where
  token : s'.token = s.token
  took : ∃ taken rs, s.q = taken ++ s'.q ∧ s'.fed = s.fed ++ rs ∧
    (AllData taken → tlsRecord.Cuts (s.rest ++ brought (taken.map Prod.fst)) rs s'.rest)
  sent : ∃ fs, s'.sent = s.sent ++ fs ∧ (∀ f ∈ fs, ∃ d, CMD.fromBytes f = .ok (.SD ⟨s.token, d⟩)) ∧
    payloads fs ++ s'.tls_out_buff = s.tls_out_buff ++ out

namespace Handshake
variable {s s' s₁ s₂ : Handshake} {out out' : Bytes}

theorem Goes.put (s : Handshake) (out : Bytes) : s.Goes (s.put out) out where
  token := rfl
  took := ⟨[], [], rfl, (List.append_nil _).symm, fun _ => by simpa [brought, Handshake.put] using .nil _ _⟩
  sent := ⟨[], (List.append_nil _).symm, by simp, rfl⟩

theorem Goes.refl (s : Handshake) : s.Goes s [] := by
  simpa [Handshake.put] using Goes.put s []

theorem Goes.trans (h : s.Goes s₁ out) (h' : s₁.Goes s₂ out') : s.Goes s₂ (out ++ out') := by
  obtain ⟨taken, rs, hq, hfed, hcuts⟩ := h.took
  obtain ⟨taken', rs', hq', hfed', hcuts'⟩ := h'.took
  obtain ⟨fs, hsent, hsd, hbuff⟩ := h.sent
  obtain ⟨fs', hsent', hsd', hbuff'⟩ := h'.sent
  refine ⟨h'.token.trans h.token, ⟨taken ++ taken', rs ++ rs', ?_, ?_, ?_⟩, fs ++ fs', ?_, ?_, ?_⟩
  · rw [hq, hq', List.append_assoc]
  · rw [hfed', hfed, List.append_assoc]
  · intro hall
    obtain ⟨htaken, htaken'⟩ := AllData.append_iff.1 hall
    rw [List.map_append, brought_append, ← List.append_assoc]
    exact ((hcuts htaken).append _).trans (hcuts' htaken')
  · rw [hsent', hsent, List.append_assoc]
  · intro f hf
    rcases List.mem_append.1 hf with hf | hf
    · exact hsd f hf
    · obtain ⟨d, hd⟩ := hsd' f hf
      exact ⟨d, by rw [hd, h.token]⟩
  · rw [payloads_append, List.append_assoc, hbuff', ← List.append_assoc, hbuff, List.append_assoc]

end Handshake

/-! ### The steps of the handlers -/

@[simp] theorem fedOf_append (o o' : List TlsOutput) : fedOf (o ++ o') = fedOf o ++ fedOf o' := List.filterMap_append

@[simp] theorem wroteOf_append (o o' : List TlsOutput) : wroteOf (o ++ o') = wroteOf o ++ wroteOf o' :=
  List.filterMap_append

@[simp] theorem producedOf_append (o o' : List TlsOutput) : producedOf (o ++ o') = producedOf o ++ producedOf o' :=
  List.flatMap_append

@[simp] theorem sentOf_append (o o' : List TlsOutput) : sentOf (o ++ o') = sentOf o ++ sentOf o' :=
  List.filterMap_append

/-- Nothing goes to the TLS object or comes from it, and nothing is sent. -/
structure Calm (o : List TlsOutput) : Prop where
  fed : fedOf o = []
  wrote : wroteOf o = []
  produced : producedOf o = []
  sent : sentOf o = []

theorem calm_told (cs : List Callback) : Calm (cs.map .told) := by
  constructor <;> induction cs with
  | nil => rfl
  | cons c cs ih => exact ih

theorem calm_reads (reads : TlsReads) : Calm reads.told := by
  have h := calm_told (reads.blocks.map fun b => .data_received (.bytes b))
  rwa [List.map_map] at h

theorem sentOf_sent (fs : List Bytes) : sentOf (fs.map .sent) = fs := by
  induction fs with
  | nil => rfl
  | cons f fs ih => exact congrArg (f :: ·) ih

theorem fedOf_fed (rs : List Bytes) : fedOf (rs.map .fed) = rs := by
  induction rs with
  | nil => rfl
  | cons r rs ih => exact congrArg (r :: ·) ih

theorem only_sent (fs : List Bytes) : fedOf (fs.map .sent) = [] ∧ wroteOf (fs.map .sent) = [] ∧
    producedOf (fs.map .sent) = [] := by
  induction fs with
  | nil => exact ⟨rfl, rfl, rfl⟩
  | cons f fs ih => exact ih

theorem only_fed (rs : List Bytes) : wroteOf (rs.map .fed) = [] ∧ producedOf (rs.map .fed) = [] ∧
    sentOf (rs.map .fed) = [] := by
  induction rs with
  | nil => exact ⟨rfl, rfl, rfl⟩
  | cons r rs ih => exact ih

/-- The end marker of a connection, as a frame. -/
def IsOk (token f : Bytes) : Prop := CMD.fromBytes f = .ok (.OK { token })

/-- Frames with data, and behind them an `OK` if `ended`. -/
def SendsData (token : Bytes) (ended : Prop) (fs : List Bytes) : Prop :=
  ∃ sds last, fs = sds ++ last ∧ (∀ f ∈ sds, ∃ d, CMD.fromBytes f = .ok (.SD ⟨token, d⟩)) ∧
    (last = [] ∨ ended ∧ ∃ ok, last = [ok] ∧ IsOk token ok)

theorem SendsData.append {token : Bytes} {ended ended' : Prop} {fs gs : List Bytes} (h : SendsData token ended fs)
    (hno : ¬ ended) (h' : SendsData token ended' gs) : SendsData token ended' (fs ++ gs) := by
  obtain ⟨sds, last, rfl, hsds, rfl | ⟨hend, -⟩⟩ := h
  · obtain ⟨sds', last', rfl, hsds', hlast⟩ := h'
    refine ⟨sds ++ sds', last', by simp, fun f hf => ?_, hlast⟩
    rcases List.mem_append.1 hf with hf | hf
    · exact hsds f hf
    · exact hsds' f hf
  · exact absurd hend hno

theorem SendsData.mono {token : Bytes} {ended ended' : Prop} {fs : List Bytes} (h : SendsData token ended fs)
    (hend : ended → ended') : SendsData token ended' fs := by
  obtain ⟨sds, last, hfs, hsds, hlast⟩ := h
  exact ⟨sds, last, hfs, hsds, hlast.imp_right fun ⟨he, hok⟩ => ⟨hend he, hok⟩⟩

theorem sendsData_of_mem {token : Bytes} {fs : List Bytes} (ended : Prop)
    (h : ∀ f ∈ fs, ∃ d, CMD.fromBytes f = .ok (.SD ⟨token, d⟩)) : SendsData token ended fs :=
  ⟨fs, [], (List.append_nil fs).symm, h, .inl rfl⟩

/-- Nothing is sent, or the handler has ended with its `OK`. -/
def SendsOk (token : Bytes) (ended : Prop) (fs : List Bytes) : Prop :=
  fs = [] ∨ ended ∧ ∃ ok, fs = [ok] ∧ IsOk token ok

theorem SendsOk.sendsData {token : Bytes} {ended : Prop} {fs : List Bytes} (h : SendsOk token ended fs) :
    SendsData token ended fs := ⟨[], fs, rfl, by simp, h⟩

theorem SendsOk.payloads {token : Bytes} {ended : Prop} {fs : List Bytes} (h : SendsOk token ended fs) :
    payloads fs = [] := by
  rcases h with rfl | ⟨-, ok, rfl, hok⟩
  · rfl
  · show payload ok ++ [] = []
    rw [List.append_nil, payload, show CMD.fromBytes ok = .ok (.OK { token }) from hok]

namespace TlsSide
variable {s s' s₁ : TlsSide} {o : List TlsOutput} {e : TlsEvent} {h : Handler}

/-- `connection_handler_out_ssl` has ended. -/
def Ended (s : TlsSide) : Prop := s.conn.conn_out_task.pc = .done

/-- Nothing is taken and nothing is fed; an `OK` may be sent. -/
structure Rests (s s' : TlsSide) (o : List TlsOutput) : Prop where
  token : s'.token = s.token
  buffer : s'.buffer = s.buffer
  tls_out_buff : s'.tls_out_buff = s.tls_out_buff
  internal_in_q : s'.conn.internal_in_q = s.conn.internal_in_q
  out_q : s'.conn.out_q = s.conn.out_q
  quiet : fedOf o = [] ∧ wroteOf o = [] ∧ producedOf o = []
  oks : SendsOk s.token s'.Ended (sentOf o)
  ended : s.Ended → s'.Ended ∧ sentOf o = []

theorem Rests.of_calm {conn : Closing} (ho : Calm o) (hin : conn.internal_in_q = s.conn.internal_in_q)
    (hout : conn.out_q = s.conn.out_q) (hend : s.Ended → conn.conn_out_task.pc = .done) :
    s.Rests { s with conn } o where
  token := rfl
  buffer := rfl
  tls_out_buff := rfl
  internal_in_q := hin
  out_q := hout
  quiet := ⟨ho.fed, ho.wrote, ho.produced⟩
  oks := .inl ho.sent
  ended hd := ⟨hend hd, ho.sent⟩

theorem rests_finish (ht : s.token.length = 16) (hh : h = .handlerOut → ¬ s.Ended) :
    s.Rests (s.finish h).1 (s.finish h).2 := by
  rcases h with _ | _
  · exact .of_calm (calm_told _) rfl rfl id
  · obtain ⟨hfed, hwrote, hproduced⟩ := only_sent (okFrames s.token)
    have htold := calm_told (s.conn.finish .handlerOut).2
    refine ⟨rfl, rfl, rfl, rfl, rfl, ⟨?_, ?_, ?_⟩, ?_, fun hend => absurd hend (hh rfl)⟩
    · rw [finish, fedOf_append, hfed, htold.fed]
      rfl
    · rw [finish, wroteOf_append, hwrote, htold.wrote]
      rfl
    · rw [finish, producedOf_append, hproduced, htold.produced]
      rfl
    · obtain ⟨ok, hok, hread⟩ := okFrames_eq ht
      refine .inr ⟨rfl, ok, ?_, hread⟩
      rw [finish, sentOf_append, sentOf_sent, htold.sent, List.append_nil, hok]

theorem rests_loop (ht : s.token.length = 16) (hh : h = .handlerOut → ¬ s.Ended) :
    s.Rests (s.loop h).1 (s.loop h).2 := by
  unfold loop
  split_ifs
  · exact rests_finish ht hh
  · rcases h with _ | _
    · exact .of_calm (calm_told []) rfl rfl id
    · exact .of_calm (calm_told []) rfl rfl fun hend => absurd hend (hh rfl)

/-- What a step does: it takes messages and feeds the whole records among what it has, and it takes items, gives
them to the TLS object and sends what that has written; only the end of the handler may lose some of that. -/
structure Moves (s : TlsSide) (e : TlsEvent) (s' : TlsSide) (o : List TlsOutput) : Prop where
  token : s'.token = s.token
  took : ∃ taken, s.conn.internal_in_q ++ arrivedOf [e] = taken ++ s'.conn.internal_in_q ∧
    tlsRecord.Cuts (s.buffer ++ brought taken) (fedOf o) s'.buffer
  frames : SendsData s.token s'.Ended (sentOf o)
  ended : s.Ended → s'.Ended ∧ sentOf o = [] ∧ wroteOf o = []
  sent : ∃ lost, payloads (sentOf o) ++ lost ++ s'.tls_out_buff = s.tls_out_buff ++ producedOf o ∧
    (¬ s'.Ended → lost = [])
  wrote : ∃ last, s.conn.out_q ++ itemsOf [e] = (wroteOf o).map some ++ last ++ s'.conn.out_q ∧
    (¬ s'.Ended → last = [])
  nonempty : ∀ d ∈ wroteOf o, d ≠ []

/-- A step that takes nothing. -/
theorem Rests.moves (hr : s.Rests s' o) (he : arrivedOf [e] = []) (he' : itemsOf [e] = []) : s.Moves e s' o where
  token := hr.token
  took := ⟨[], by rw [he, hr.internal_in_q, List.append_nil, List.nil_append], by
    rw [hr.quiet.1, hr.buffer, show brought [] = [] from rfl, List.append_nil]
    exact .nil _ _⟩
  frames := hr.oks.sendsData
  ended hend := ⟨(hr.ended hend).1, (hr.ended hend).2, hr.quiet.2.1⟩
  sent := ⟨[], by rw [hr.oks.payloads, hr.quiet.2.2, hr.tls_out_buff]; simp, fun _ => rfl⟩
  wrote := ⟨[], by rw [he', hr.quiet.2.1, hr.out_q]; simp, fun _ => rfl⟩
  nonempty d hd := by rw [hr.quiet.2.1] at hd; cases hd

theorem cuts_of_feed {n : Nat} {b rest : Bytes} {fed : List Bytes} (h : feed n b = some (fed, rest)) :
    tlsRecord.Cuts b fed rest := by
  induction n generalizing b fed with
  | zero => cases h
  | succ n ih =>
    by_cases hlen : 5 < b.length
    · by_cases hw : tlsRecord.Whole b
      · rw [feed_of_whole hlen hw] at h
        obtain ⟨⟨fed', rest'⟩, hr', hr⟩ := Option.map_eq_some_iff.1 h
        obtain ⟨rfl, rfl⟩ := Prod.mk.inj hr
        exact (RecordFormat.Cuts.first hw).trans (ih hr')
      · rw [feed_of_not_whole hlen hw] at h
        exact ih h
    · rw [feed_of_le (not_lt.1 hlen)] at h
      cases h
      exact .nil _ _

/-- A frame is taken, `rs` are fed and `out` is put into `tls_out_buff`; then the handler goes on or ends. -/
theorem moves_in {frame t : Bytes} {rest : List Bytes} {o' : List TlsOutput} (pre : List TlsOutput) (rs : List Bytes)
    (b out : Bytes) (hq : s.conn.internal_in_q = frame :: rest)
    (hr : Rests { s with conn := { s.conn with internal_in_q := rest }, buffer := b, tls_out_buff := t } s' o')
    (hcuts : tlsRecord.Cuts (s.buffer ++ brought [frame]) rs b) (ht : t = s.tls_out_buff ++ out)
    (hpre : fedOf pre = rs ∧ wroteOf pre = [] ∧ producedOf pre = out ∧ sentOf pre = [])
    (he : arrivedOf [e] = [] ∧ itemsOf [e] = []) : s.Moves e s' (pre ++ o') := by
  obtain ⟨hfed, hwrote, hproduced, hsent⟩ := hpre
  obtain ⟨hfed', hwrote', hproduced'⟩ := hr.quiet
  have hsame : sentOf (pre ++ o') = sentOf o' := by rw [sentOf_append, hsent, List.nil_append]
  have hnone : wroteOf (pre ++ o') = [] := by rw [wroteOf_append, hwrote, hwrote']; rfl
  refine ⟨hr.token, ⟨[frame], ?_, ?_⟩, ?_, fun hend => ?_, ⟨[], ?_, fun _ => rfl⟩, ⟨[], ?_, fun _ => rfl⟩,
    fun d hd => ?_⟩
  · rw [he.1, hq, hr.internal_in_q, List.append_nil]
    rfl
  · rw [fedOf_append, hfed, hfed', List.append_nil, hr.buffer]
    exact hcuts
  · rw [hsame]
    exact hr.oks.sendsData
  · obtain ⟨hend', hno⟩ := hr.ended hend
    exact ⟨hend', hsame.trans hno, hnone⟩
  · rw [hsame, hr.oks.payloads, hr.tls_out_buff, producedOf_append, hproduced, hproduced', ht]
    simp
  · rw [he.2, hnone, hr.out_q]
    simp
  · rw [hnone] at hd
    cases hd

theorem moves_received {n : Nat} {reads : TlsReads} {out frame : Bytes} {rest : List Bytes}
    (ht : s.token.length = 16) (hq : s.conn.internal_in_q = frame :: rest)
    (hs : received { s with conn := { s.conn with internal_in_q := rest } } frame n reads out = some (s', o)) :
    s.Moves (.message n reads out) s' o := by
  have he : arrivedOf [.message n reads out] = [] ∧ itemsOf [.message n reads out] = [] := ⟨rfl, rfl⟩
  have hin : Handler.handlerIn = .handlerOut → ¬ s.Ended := by simp
  unfold received at hs
  split at hs
  · rename_i err herr
    obtain ⟨rfl, rfl⟩ := Prod.ext_iff.1 (Option.some.inj hs)
    have hnil : brought [frame] = [] := brought_error herr []
    refine moves_in [] [] s.buffer [] hq (rests_finish ht hin) ?_
      (List.append_nil _).symm ⟨rfl, rfl, rfl, rfl⟩ he
    rw [hnil, List.append_nil]
    exact .nil _ _
  · rename_i data hdata
    have hone : brought [frame] = data := (brought_cons hdata []).trans (List.append_nil _)
    have hfeed : ∀ {fed buffer}, feed n (s.buffer ++ data) = some (fed, buffer) →
        tlsRecord.Cuts (s.buffer ++ brought [frame]) fed buffer := by
      intro fed buffer hfeed
      rw [hone]
      exact cuts_of_feed hfeed
    by_cases hshort : (s.buffer ++ data).length < 5
    · rw [if_pos hshort] at hs
      obtain ⟨rfl, rfl⟩ := Prod.ext_iff.1 (Option.some.inj hs)
      refine moves_in [] [] (s.buffer ++ data) [] hq (rests_loop ht hin) ?_
        (List.append_nil _).symm ⟨rfl, rfl, rfl, rfl⟩ he
      rw [hone]
      exact .nil _ _
    · rw [if_neg hshort] at hs
      obtain ⟨⟨fed, buffer⟩, hfed, hr⟩ := Option.map_eq_some_iff.1 hs
      have hcuts := hfeed hfed
      obtain ⟨hwrote, hproduced, hsent⟩ := only_fed fed
      have hreads := calm_reads reads
      by_cases hdisc : s.conn.disconnected_evt = true
      · rw [if_pos hdisc] at hr
        obtain ⟨rfl, rfl⟩ := Prod.ext_iff.1 hr
        exact moves_in _ _ _ [] hq (rests_loop ht hin) hcuts (List.append_nil _).symm
          ⟨fedOf_fed fed, hwrote, hproduced, hsent⟩ he
      · rw [if_neg hdisc] at hr
        have hpre : fedOf (fed.map .fed ++ .produced out :: reads.told) = fed ∧
            wroteOf (fed.map .fed ++ .produced out :: reads.told) = [] ∧
            producedOf (fed.map .fed ++ .produced out :: reads.told) = out ∧
            sentOf (fed.map .fed ++ .produced out :: reads.told) = [] := by
          rw [List.append_cons]
          refine ⟨?_, ?_, ?_, ?_⟩
          · rw [fedOf_append, fedOf_append, fedOf_fed, hreads.fed]
            simp [fedOf]
          · rw [wroteOf_append, wroteOf_append, hwrote, hreads.wrote]
            rfl
          · rw [producedOf_append, producedOf_append, hproduced, hreads.produced]
            simp [producedOf]
          · rw [sentOf_append, sentOf_append, hsent, hreads.sent]
            rfl
        obtain ⟨rfl, rfl⟩ := Prod.ext_iff.1 hr
        rcases reads with blocks | ⟨blocks, err⟩
        · exact moves_in _ _ _ _ hq (rests_loop ht hin) hcuts rfl hpre he
        · exact moves_in _ _ _ _ hq (rests_finish ht hin) hcuts rfl hpre he

/-- An item is taken; then the handler goes on or ends. -/
theorem moves_out {item : Option Bytes} {rest : List (Option Bytes)} {o' : List TlsOutput} (pre : List TlsOutput)
    (last : List (Option Bytes)) (lost t : Bytes) (hq : s.conn.out_q = item :: rest) (hnot : ¬ s.Ended)
    (hr : Rests { s with conn := { s.conn with out_q := rest }, tls_out_buff := t } s' o')
    (hpre : fedOf pre = [] ∧ (wroteOf pre).map some ++ last = [item] ∧ ∀ d ∈ wroteOf pre, d ≠ [])
    (hsd : ∀ f ∈ sentOf pre, ∃ d, CMD.fromBytes f = .ok (.SD ⟨s.token, d⟩))
    (hsent : payloads (sentOf pre) ++ lost ++ t = s.tls_out_buff ++ producedOf pre)
    (hend : ¬ s'.Ended → last = [] ∧ lost = [])
    (he : arrivedOf [e] = [] ∧ itemsOf [e] = []) : s.Moves e s' (pre ++ o') := by
  obtain ⟨hfed, hwrote, hne⟩ := hpre
  obtain ⟨hfed', hwrote', hproduced'⟩ := hr.quiet
  have hsame : wroteOf (pre ++ o') = wroteOf pre := by rw [wroteOf_append, hwrote', List.append_nil]
  refine ⟨hr.token, ⟨[], ?_, ?_⟩, ?_, fun h => absurd h hnot, ⟨lost, ?_, fun h => (hend h).2⟩,
    ⟨last, ?_, fun h => (hend h).1⟩, fun d hd => ?_⟩
  · rw [he.1, hr.internal_in_q, List.append_nil]
    rfl
  · rw [fedOf_append, hfed, hfed', hr.buffer, show brought [] = [] from rfl, List.append_nil]
    exact .nil _ _
  · rw [sentOf_append]
    exact (sendsData_of_mem False hsd).append id hr.oks.sendsData
  · rw [sentOf_append, payloads_append, hr.oks.payloads, List.append_nil, hr.tls_out_buff, producedOf_append,
      hproduced', List.append_nil]
    exact hsent
  · rw [he.2, hsame, hwrote, hr.out_q, hq, List.append_nil]
    rfl
  · rw [hsame] at hd
    exact hne d hd

/-- The end of the out handler. -/
theorem ended_finish (s : TlsSide) : (s.finish .handlerOut).1.Ended := rfl

/-- An item with data is given to the TLS object, and then what that has written is sent. -/
theorem moves_drain {x : UInt8} {xs : Bytes} {rest : List (Option Bytes)} (out : Bytes) (raises : Bool)
    (ht : s.token.length = 16) (hq : s.conn.out_q = some (x :: xs) :: rest) (hnot : ¬ s.Ended)
    (he : arrivedOf [e] = [] ∧ itemsOf [e] = []) {r : TlsSide × List TlsOutput}
    (hr : r = drain { s with conn := { s.conn with out_q := rest }, tls_out_buff := s.tls_out_buff ++ out } raises) :
    s.Moves e r.1 ([.wrote (x :: xs), .produced out] ++ r.2) := by
  have hout : Handler.handlerOut = .handlerOut → ¬ s.Ended := fun _ => hnot
  have hpre : fedOf [.wrote (x :: xs), .produced out] = [] ∧
      (wroteOf [.wrote (x :: xs), .produced out]).map some ++ [] = [some (x :: xs)] ∧
      ∀ d ∈ wroteOf [.wrote (x :: xs), .produced out], d ≠ [] := ⟨rfl, rfl, by simp [wroteOf]⟩
  have hproduced : producedOf [.wrote (x :: xs), .produced out] = out := List.append_nil _
  have hlost : r = finish { s with conn := { s.conn with out_q := rest }, tls_out_buff := [] } .handlerOut →
      s.Moves e r.1 ([.wrote (x :: xs), .produced out] ++ r.2) := by
    intro hr
    rw [hr]
    refine moves_out [.wrote (x :: xs), .produced out] [] (s.tls_out_buff ++ out) [] hq hnot
      (rests_finish ht hout) hpre (by simp [sentOf]) ?_ (fun h => absurd (ended_finish _) h) he
    rw [hproduced]
    simp [sentOf, payloads]
  unfold drain at hr
  split at hr
  · rw [hr]
    refine moves_out [.wrote (x :: xs), .produced out] [] [] (s.tls_out_buff ++ out) hq hnot
      (rests_loop ht hout) hpre (by simp [sentOf]) ?_ (fun _ => ⟨rfl, rfl⟩) he
    rw [hproduced]
    simp [sentOf, payloads]
  · split at hr
    · exact hlost hr
    · rename_i frame hframe
      split at hr
      · exact hlost hr
      · have hpay : payloads [frame] = s.tls_out_buff ++ out := by
          simp [payloads, (carries_SD ht).payload hframe]
        have hframes : sentOf [.wrote (x :: xs), .produced out, .sent frame] = [frame] := rfl
        have hproduced' : producedOf [.wrote (x :: xs), .produced out, .sent frame] = out := List.append_nil _
        rw [hr]
        refine moves_out [.wrote (x :: xs), .produced out, .sent frame] [] [] [] hq hnot
          (rests_loop ht hout) ⟨rfl, rfl, by simp [wroteOf]⟩ ?_ ?_ (fun _ => ⟨rfl, rfl⟩) he
        · intro f hf
          rw [hframes, List.mem_singleton] at hf
          rw [hf]
          exact ⟨_, by rw [CMD.fromBytes, CMD.fromBuffer_toBytes_SD ht hframe]; rfl⟩
        · rw [hframes, hproduced', hpay]
          simp

theorem moves_taken {written : Except PyErr Unit} {out : Bytes} {raises : Bool} {item : Option Bytes}
    {rest : List (Option Bytes)} (ht : s.token.length = 16) (hq : s.conn.out_q = item :: rest) (hnot : ¬ s.Ended)
    (he : arrivedOf [e] = [] ∧ itemsOf [e] = []) {r : TlsSide × List TlsOutput}
    (hr : r = taken { s with conn := { s.conn with out_q := rest } } item written out raises) :
    s.Moves e r.1 r.2 := by
  have hout : Handler.handlerOut = .handlerOut → ¬ s.Ended := fun _ => hnot
  have hstop : r = finish { s with conn := { s.conn with out_q := rest } } .handlerOut → s.Moves e r.1 r.2 := by
    intro hr
    rw [hr]
    have h := moves_out [] [item] [] s.tls_out_buff hq hnot
      (rests_finish ht hout) ⟨rfl, rfl, by simp [wroteOf]⟩ (by simp [sentOf]) (List.append_nil _).symm
      (fun h => absurd (ended_finish _) h) he
    rwa [List.nil_append] at h
  rcases item with _ | _ | ⟨x, xs⟩
  · exact hstop hr
  · exact hstop hr
  · simp only [taken] at hr
    rcases written with err | _
    · dsimp only [after] at hr
      rw [hr]
      refine moves_out [.wrote (x :: xs), .produced out] [] [] (s.tls_out_buff ++ out) hq hnot (rests_finish ht hout)
        ⟨rfl, rfl, by simp [wroteOf]⟩ (by simp [sentOf]) ?_ (fun _ => ⟨rfl, rfl⟩) he
      simp [sentOf, payloads, producedOf]
    · dsimp only [after] at hr
      rw [hr]
      exact moves_drain out raises ht hq hnot he rfl

/-- A step of the control takes nothing; it queues what comes. -/
theorem moves_told {conn : Closing} (cs : List Callback)
    (hin : conn.internal_in_q = s.conn.internal_in_q ++ arrivedOf [e])
    (hout : conn.out_q = s.conn.out_q ++ itemsOf [e]) (hend : s.Ended → conn.conn_out_task.pc = .done) :
    s.Moves e { s with conn } (cs.map .told) := by
  have hcalm := calm_told cs
  refine ⟨rfl, ⟨[], hin.symm, ?_⟩, ?_, fun h => ⟨hend h, hcalm.sent, hcalm.wrote⟩, ⟨[], ?_, fun _ => rfl⟩,
    ⟨[], ?_, fun _ => rfl⟩, fun d hd => ?_⟩
  · rw [hcalm.fed, show brought [] = [] from rfl, List.append_nil]
    exact .nil _ _
  · rw [hcalm.sent]
    exact sendsData_of_mem _ fun f hf => absurd hf List.not_mem_nil
  · rw [hcalm.sent, hcalm.produced, List.append_nil]
    exact (List.append_nil s.tls_out_buff).symm
  · rw [hcalm.wrote]
    exact hout.symm
  · rw [hcalm.wrote] at hd
    cases hd

theorem moves_of_step (ht : s.token.length = 16) (hs : s.step e = some (s', o)) : s.Moves e s' o := by
  have hcontrol : ∀ {c : CloseEvent}, s.control c = some (s', o) → ∃ r, s.conn.step c = some r ∧
      s' = { s with conn := r.1 } ∧ o = r.2.map .told := by
    intro c hc
    obtain ⟨r, hr, hr'⟩ := Option.map_eq_some_iff.1 hc
    obtain ⟨rfl, rfl⟩ := Prod.mk.inj hr'
    exact ⟨r, hr, rfl, rfl⟩
  cases e with
  | arrives frame =>
    obtain ⟨r, hr, rfl, rfl⟩ := hcontrol hs
    cases hr
    exact moves_told [] rfl (List.append_nil _).symm id
  | call c =>
    obtain ⟨r, hr, rfl, rfl⟩ := hcontrol hs
    cases hr
    exact moves_told [] (List.append_nil _).symm rfl id
  | disconnected =>
    obtain ⟨r, hr, rfl, rfl⟩ := hcontrol hs
    cases hr
    exact moves_told [] (List.append_nil _).symm (List.append_nil _).symm id
  | close =>
    obtain ⟨r, hr, rfl, rfl⟩ := hcontrol hs
    cases hr
    exact moves_told _ (List.append_nil _).symm (List.append_nil _).symm id
  | closeTask =>
    obtain ⟨r, hr, rfl, rfl⟩ := hcontrol hs
    simp only [Closing.step] at hr
    split_ifs at hr
    cases hr
    exact moves_told _ (List.append_nil _).symm (List.append_nil _).symm id
  | start h =>
    simp only [step] at hs
    split_ifs at hs with hfresh
    obtain ⟨rfl, rfl⟩ := Prod.ext_iff.1 (Option.some.inj hs)
    refine (rests_loop ht fun hh => ?_).moves rfl rfl
    subst hh
    have htask : s.conn.conn_out_task = {} := hfresh
    simp [Ended, htask]
  | cancelled h =>
    simp only [step] at hs
    split_ifs at hs with hc hw
    · obtain ⟨rfl, rfl⟩ := Prod.ext_iff.1 (Option.some.inj hs)
      refine (rests_finish ht fun hh => ?_).moves rfl rfl
      subst hh
      have htask : s.conn.conn_out_task.pc = .waiting := hw
      simp [Ended, htask]
    · obtain ⟨rfl, rfl⟩ := Prod.ext_iff.1 (Option.some.inj hs)
      refine Rests.moves (Rests.of_calm (calm_told []) ?_ ?_ ?_) rfl rfl
      · cases h <;> rfl
      · cases h <;> rfl
      · intro hend
        cases h
        · exact hend
        · rfl
  | message n reads out =>
    simp only [step] at hs
    split_ifs at hs
    split at hs
    · cases hs
    · rename_i frame rest hq
      exact moves_received ht hq hs
  | item written out raises =>
    simp only [step] at hs
    split_ifs at hs with hw
    split at hs
    · cases hs
    · rename_i item rest hq
      obtain ⟨rfl, rfl⟩ := Prod.ext_iff.1 (Option.some.inj hs)
      exact moves_taken ht hq (by simp [Ended, hw]) ⟨rfl, rfl⟩ rfl

/-- What the steps of a run add up to. -/
structure Behaves (s : TlsSide) (es : List TlsEvent) (s' : TlsSide) (os : List TlsOutput) : Prop where
  token : s'.token = s.token
  took : ∃ taken, s.conn.internal_in_q ++ arrivedOf es = taken ++ s'.conn.internal_in_q ∧
    tlsRecord.Cuts (s.buffer ++ brought taken) (fedOf os) s'.buffer
  frames : SendsData s.token s'.Ended (sentOf os)
  sent : payloads (sentOf os) <+: s.tls_out_buff ++ producedOf os
  sentAll : ¬ s'.Ended → payloads (sentOf os) ++ s'.tls_out_buff = s.tls_out_buff ++ producedOf os
  wrote : (wroteOf os).map some <+: s.conn.out_q ++ itemsOf es
  wroteAll : ¬ s'.Ended → s.conn.out_q ++ itemsOf es = (wroteOf os).map some ++ s'.conn.out_q
  nonempty : ∀ d ∈ wroteOf os, d ≠ []

@[simp] theorem arrivedOf_append (es es' : List TlsEvent) : arrivedOf (es ++ es') = arrivedOf es ++ arrivedOf es' :=
  List.filterMap_append

@[simp] theorem itemsOf_append (es es' : List TlsEvent) : itemsOf (es ++ es') = itemsOf es ++ itemsOf es' :=
  List.filterMap_append

theorem Behaves.nil (s : TlsSide) : s.Behaves [] s [] where
  token := rfl
  took := ⟨[], List.append_nil _, by rw [show brought [] = [] from rfl, List.append_nil]; exact .nil _ _⟩
  frames := sendsData_of_mem _ (by simp [sentOf])
  sent := List.nil_prefix
  sentAll _ := (List.append_nil _).symm
  wrote := List.nil_prefix
  wroteAll _ := List.append_nil _
  nonempty d hd := by cases hd

theorem Behaves.step {es : List TlsEvent} {os : List TlsOutput} (hb : s.Behaves es s₁ os) (hm : s₁.Moves e s' o) :
    s.Behaves (es ++ [e]) s' (os ++ o) := by
  obtain ⟨taken, hq, hcuts⟩ := hb.took
  obtain ⟨taken', hq', hcuts'⟩ := hm.took
  obtain ⟨lost, hlost, hnone⟩ := hm.sent
  obtain ⟨last, hlast, hnil⟩ := hm.wrote
  refine ⟨hm.token.trans hb.token, ⟨taken ++ taken', ?_, ?_⟩, ?_, ?_, fun hend => ?_, ?_, fun hend => ?_,
    fun d hd => ?_⟩
  · rw [arrivedOf_append, ← List.append_assoc, hq, List.append_assoc, hq', List.append_assoc]
  · rw [brought_append, ← List.append_assoc, fedOf_append]
    exact (hcuts.append _).trans hcuts'
  · rw [sentOf_append]
    by_cases hend : s₁.Ended
    · obtain ⟨hend', hno, -⟩ := hm.ended hend
      rw [hno, List.append_nil]
      exact hb.frames.mono fun _ => hend'
    · exact hb.frames.append hend (hb.token ▸ hm.frames)
  · by_cases hend : s₁.Ended
    · obtain ⟨-, hno, -⟩ := hm.ended hend
      rw [sentOf_append, hno, List.append_nil, producedOf_append, ← List.append_assoc]
      exact hb.sent.trans (List.prefix_append _ _)
    · refine ⟨lost ++ s'.tls_out_buff, ?_⟩
      calc payloads (sentOf (os ++ o)) ++ (lost ++ s'.tls_out_buff)
          = payloads (sentOf os) ++ (payloads (sentOf o) ++ lost ++ s'.tls_out_buff) := by
            rw [sentOf_append, payloads_append]; simp only [List.append_assoc]
        _ = payloads (sentOf os) ++ s₁.tls_out_buff ++ producedOf o := by rw [hlost, List.append_assoc]
        _ = s.tls_out_buff ++ producedOf (os ++ o) := by
            rw [hb.sentAll hend, producedOf_append, List.append_assoc]
  · have hbefore : ¬ s₁.Ended := fun h => hend (hm.ended h).1
    rw [hnone hend, List.append_nil] at hlost
    rw [sentOf_append, payloads_append, List.append_assoc, hlost, ← List.append_assoc, hb.sentAll hbefore,
      producedOf_append, List.append_assoc]
  · by_cases hend : s₁.Ended
    · obtain ⟨-, -, hno⟩ := hm.ended hend
      rw [wroteOf_append, hno, List.append_nil, itemsOf_append, ← List.append_assoc]
      exact hb.wrote.trans (List.prefix_append _ _)
    · refine ⟨last ++ s'.conn.out_q, ?_⟩
      rw [wroteOf_append, List.map_append, List.append_assoc, ← List.append_assoc ((wroteOf o).map some), ← hlast,
        ← List.append_assoc, ← hb.wroteAll hend, itemsOf_append, List.append_assoc]
  · have hbefore : ¬ s₁.Ended := fun h => hend (hm.ended h).1
    rw [hnil hend, List.append_nil] at hlast
    rw [itemsOf_append, ← List.append_assoc, hb.wroteAll hbefore, List.append_assoc, hlast, wroteOf_append,
      List.map_append, List.append_assoc]
  · rw [wroteOf_append] at hd
    rcases List.mem_append.1 hd with hd | hd
    · exact hb.nonempty d hd
    · exact hm.nonempty d hd

end TlsSide

end Wsnet.Pyodide.WSNETConnection
