import Wsnet.Lib.Run
import Wsnet.Router.Router

/-!
# Requests of the SSPI proxy

`sr` sends a command and waits for its reply. The router tells every operator about the agents, in
messages with the zero token, on the same websocket; `sr` skips them, but the `send` is in the loop,
so each of them makes it send the command again. A remote that answers every request it reads then has
more answers than there are calls (`Exchange`).
-/

namespace Wsnet.Operator

open Router (zeroToken)

/-- What `ws.recv()` returns or raises. -/
abbrev Recv := Except PyErr Bytes

namespace WSNETSSPIProxy

/-- The bytes of the command, for the agent or for the server itself. -/
def request (agentid : Option Bytes) (cmd : CMD) : Except PyErr Bytes :=
  match agentid with
  | some agentid => (OPCMD.mk agentid cmd).toBytes
  | none => cmd.toBytes

/-- What `sr` returns on what it has received; `none` is the `continue`. -/
def answer : Recv → Option (Except PyErr CMD)
  | .error e => some (.error e)
  | .ok reply_raw =>
    match CMD.fromBytes reply_raw with
    | .error e => some (.error e)
    | .ok reply =>
      if reply.token = zeroToken then none
      else
        match reply with
        | .ERR c => some (.error (.exception ("Reason: " ++ c.reason ++ " Extra: " ++ c.extra)))
        | reply => some (.ok reply)

/-- What a call has sent, the pair it returns, unless it still waits, and what it has not received. -/
structure Sr where
  sent : List Bytes
  result : Option (Except PyErr CMD)
  left : List Recv
  deriving DecidableEq

/-- `while True` -/
def sr_loop (raw : Bytes) : List Recv → Sr
  | [] => ⟨[raw], none, []⟩
  | r :: q =>
    match answer r with
    | none => { sr_loop raw q with sent := raw :: (sr_loop raw q).sent }
    | some result => ⟨[raw], some result, q⟩

def sr (agentid : Option Bytes) (cmd : CMD) (incoming : List Recv) : Sr :=
  match request agentid cmd with
  | .error e => ⟨[], some (.error e), incoming⟩
  | .ok raw => sr_loop raw incoming

variable {agentid : Option Bytes} {cmd : CMD} {raw : Bytes} {zs rest : List Recv} {reply : Recv}
  {result : Except PyErr CMD}

/-- One more request for each message that is skipped. -/
theorem sr_loop_eq (hz : ∀ z ∈ zs, answer z = none) (hr : answer reply = some result) :
    sr_loop raw (zs ++ reply :: rest) = ⟨List.replicate (zs.length + 1) raw, some result, rest⟩ := by
  induction zs with
  | nil =>
    rw [List.nil_append, sr_loop, hr]
    rfl
  | cons z zs ih =>
    rw [List.cons_append, sr_loop, hz z List.mem_cons_self, ih fun z hz' => hz z (List.mem_cons_of_mem _ hz')]
    rfl

theorem sr_eq (hraw : request agentid cmd = .ok raw) (hz : ∀ z ∈ zs, answer z = none)
    (hr : answer reply = some result) :
    sr agentid cmd (zs ++ reply :: rest) = ⟨List.replicate (zs.length + 1) raw, some result, rest⟩ := by
  rw [sr, hraw]
  exact sr_loop_eq hz hr

/-- The command is sent once, and the first message with another token answers it. -/
def SentOnce (agentid : Option Bytes) (cmd : CMD) (incoming rest : List Recv) (result : Except PyErr CMD) : Prop :=
  ∃ raw, request agentid cmd = .ok raw ∧ sr agentid cmd incoming = ⟨[raw], some result, rest⟩

theorem sentOnce_iff (hz : ∀ z ∈ zs, answer z = none) (hr : answer reply = some result) :
    SentOnce agentid cmd (zs ++ reply :: rest) rest result ↔ (∃ raw, request agentid cmd = .ok raw) ∧ zs = [] := by
  constructor
  · rintro ⟨raw, hraw, h⟩
    refine ⟨⟨raw, hraw⟩, ?_⟩
    rw [sr_eq hraw hz hr] at h
    have := congrArg (fun s => s.sent.length) h
    simpa using this
  · rintro ⟨⟨raw, hraw⟩, rfl⟩
    exact ⟨raw, hraw, sr_eq hraw hz hr⟩

end WSNETSSPIProxy

/-! ### Calls one after another -/

open WSNETSSPIProxy

/-- A proxy, a remote that reads requests in order, and what is on the way between them. -/
structure Exchange where
  agentid : Option Bytes
  /-- the request of the call that waits -/
  waiting : Option Bytes := none
  up : List Bytes := []
  down : List Bytes := []

namespace Exchange

inductive Event
  /-- `sr` is called -/
  | call (cmd : CMD)
  /-- the remote answers the next request -/
  | answer (reply : Bytes)
  /-- the router announces an agent -/
  | notify (frame : Bytes)
  /-- the `recv` of `sr` returns -/
  | recv

inductive Output
  /-- a call whose command has these bytes -/
  | called (raw : Bytes)
  | sent (raw : Bytes)
  | answered (raw reply : Bytes)
  | returned (result : Except PyErr CMD)
  /-- a call that returns before it sends -/
  | refused (e : PyErr)

/-- A reply of the remote ends a call, a notification does not. -/
def step (s : Exchange) : Event → Option (Exchange × List Output)
  | .call cmd =>
    match s.waiting, request s.agentid cmd with
    | none, .ok raw => some ({ s with waiting := some raw, up := s.up ++ [raw] }, [.called raw, .sent raw])
    | none, .error e => some (s, [.refused e])
    | some _, _ => none
  | .answer reply =>
    match s.up, answer (.ok reply) with
    | raw :: up, some _ => some ({ s with up, down := s.down ++ [reply] }, [.answered raw reply])
    | _, _ => none
  | .notify frame =>
    match answer (.ok frame) with
    | none => some ({ s with down := s.down ++ [frame] }, [])
    | some _ => none
  | .recv =>
    match s.waiting, s.down with
    | some raw, frame :: down =>
      match answer (.ok frame) with
      | none => some ({ s with up := s.up ++ [raw], down }, [.sent raw])
      | some result => some ({ s with waiting := none, down }, [.returned result])
    | _, _ => none

def calls (os : List Output) : List Bytes := os.filterMap fun o => match o with | .called raw => some raw | _ => none

def sents (os : List Output) : List Bytes := os.filterMap fun o => match o with | .sent raw => some raw | _ => none

def answers (os : List Output) : List (Bytes × Bytes) :=
  os.filterMap fun o => match o with | .answered raw reply => some (raw, reply) | _ => none

def returns (os : List Output) : List (Except PyErr CMD) :=
  os.filterMap fun o => match o with | .returned result => some result | _ => none

@[simp] theorem calls_append (os os' : List Output) : calls (os ++ os') = calls os ++ calls os' := List.filterMap_append ..
@[simp] theorem sents_append (os os' : List Output) : sents (os ++ os') = sents os ++ sents os' := List.filterMap_append ..
@[simp] theorem answers_append (os os' : List Output) : answers (os ++ os') = answers os ++ answers os' :=
  List.filterMap_append ..
@[simp] theorem returns_append (os os' : List Output) : returns (os ++ os') = returns os ++ returns os' :=
  List.filterMap_append ..

variable {s s' : Exchange} {e : Event} {es : List Event} {o os : List Output} {raw : Bytes} {down : List Bytes}
  {frames : List Recv}

theorem run_recv {zs rest : List Bytes} {reply : Bytes} {result : Except PyErr CMD} (hw : s.waiting = some raw)
    (hd : s.down = zs ++ reply :: rest) (hz : ∀ z ∈ zs, answer (.ok z) = none) (hr : answer (.ok reply) = some result) :
    Run step s (List.replicate (zs.length + 1) .recv)
      { s with waiting := none, up := s.up ++ List.replicate zs.length raw, down := rest }
      (List.replicate zs.length (.sent raw) ++ [.returned result]) := by
  induction zs generalizing s with
  | nil =>
    refine .single ?_
    simp only [step, hw, hd, List.nil_append, hr, List.length_nil, List.replicate_zero, List.append_nil]
  | cons z zs ih =>
    have hstep : s.step .recv = some ({ s with up := s.up ++ [raw], down := zs ++ reply :: rest }, [.sent raw]) := by
      simp only [step, hw, hd, List.cons_append, hz z List.mem_cons_self]
    have hrun := ih (s := { s with up := s.up ++ [raw], down := zs ++ reply :: rest }) hw rfl
      fun z hz' => hz z (List.mem_cons_of_mem _ hz')
    simpa [List.replicate_succ] using Run.cons hstep hrun

/-- A call does in its steps what `sr` does. -/
theorem run_call {cmd : CMD} {zs rest : List Bytes} {reply : Bytes} {result : Except PyErr CMD}
    (hw : s.waiting = none) (hraw : request s.agentid cmd = .ok raw) (hd : s.down = zs ++ reply :: rest)
    (hz : ∀ z ∈ zs, answer (.ok z) = none) (hr : answer (.ok reply) = some result) :
    ∃ sent, sr s.agentid cmd (s.down.map .ok) = ⟨sent, some result, rest.map .ok⟩ ∧
      Run step s (.call cmd :: List.replicate (zs.length + 1) .recv)
        { s with waiting := none, up := s.up ++ sent, down := rest }
        (.called raw :: (sent.map .sent ++ [.returned result])) := by
  refine ⟨List.replicate (zs.length + 1) raw, ?_, ?_⟩
  · rw [hd, List.map_append, List.map_cons, sr_eq hraw ?_ hr, List.length_map]
    intro z hz'
    obtain ⟨f, hf, rfl⟩ := List.mem_map.1 hz'
    exact hz f hf
  · have hstep : s.step (.call cmd) = some ({ s with waiting := some raw, up := s.up ++ [raw] },
        [.called raw, .sent raw]) := by
      simp only [step, hw, hraw]
    have hrun := run_recv (s := { s with waiting := some raw, up := s.up ++ [raw] }) rfl hd hz hr
    simpa [List.replicate_succ] using Run.cons hstep hrun

/-! ### Which call gets which answer -/

/-- What the messages on the way will make the calls return. -/
def replies (down : List Bytes) : List (Except PyErr CMD) := down.filterMap fun frame => answer (.ok frame)

/-- Requests and answers go together as long as no request is sent twice. -/
structure Matched (s : Exchange) (os : List Output) : Prop where
  sent : sents os = calls os
  up : calls os = (answers os).map Prod.fst ++ s.up
  down : (answers os).map (fun p => answer (.ok p.2)) = (returns os ++ replies s.down).map some
  waiting : (calls os).length = (returns os).length + s.waiting.toList.length

/-- The frame that a waiting call receives is no notification. -/
def Undisturbed (s : Exchange) : Event → Prop
  | .recv => ∀ frame down, s.waiting.isSome → s.down = frame :: down → answer (.ok frame) ≠ none
  | _ => True

theorem Matched.step (hp : Matched s os) (hu : s.Undisturbed e) (h : s.step e = some (s', o)) :
    Matched s' (os ++ o) := by
  obtain ⟨hsent, hup, hdown, hwaiting⟩ := hp
  -- what the four projections make of the outputs of a step
  have hcall : ∀ raw, calls [.called raw, .sent raw] = [raw] ∧ sents [.called raw, .sent raw] = [raw] ∧
      answers [.called raw, .sent raw] = [] ∧ returns [.called raw, .sent raw] = [] := fun _ => ⟨rfl, rfl, rfl, rfl⟩
  have hrefused : ∀ e, calls [.refused e] = [] ∧ sents [.refused e] = [] ∧ answers [.refused e] = [] ∧
      returns [.refused e] = [] := fun _ => ⟨rfl, rfl, rfl, rfl⟩
  have hanswered : ∀ raw reply, calls [.answered raw reply] = [] ∧ sents [.answered raw reply] = [] ∧
      answers [.answered raw reply] = [(raw, reply)] ∧ returns [.answered raw reply] = [] :=
    fun _ _ => ⟨rfl, rfl, rfl, rfl⟩
  have hreturned : ∀ r, calls [.returned r] = [] ∧ sents [.returned r] = [] ∧ answers [.returned r] = [] ∧
      returns [.returned r] = [r] := fun _ => ⟨rfl, rfl, rfl, rfl⟩
  cases e with
  | call cmd =>
    simp only [Exchange.step] at h
    split at h <;> cases h
    · rename_i raw hw _
      refine ⟨?_, ?_, ?_, ?_⟩
      · simp [hcall, hsent]
      · simp [hcall, hup]
      · simpa [hcall] using hdown
      · simp [hcall, hwaiting, hw]
    · exact ⟨by simpa [hrefused] using hsent, by simpa [hrefused] using hup, by simpa [hrefused] using hdown,
        by simpa [hrefused] using hwaiting⟩
  | answer reply =>
    simp only [Exchange.step] at h
    split at h <;> cases h
    rename_i raw up result hup' hr
    have hrep : replies (s.down ++ [reply]) = replies s.down ++ [result] := by simp [replies, hr]
    refine ⟨?_, ?_, ?_, ?_⟩
    · simpa [hanswered] using hsent
    · simp [hanswered, hup, hup']
    · rw [hrep]
      simp [hanswered, hdown, hr]
    · simpa [hanswered] using hwaiting
  | notify frame =>
    simp only [Exchange.step] at h
    split at h <;> cases h
    have hrep : replies (s.down ++ [frame]) = replies s.down := by simp [replies, *]
    exact ⟨by simpa using hsent, by simpa using hup, by simpa [hrep] using hdown, by simpa using hwaiting⟩
  | recv =>
    simp only [Exchange.step] at h
    split at h
    · rename_i raw frame down hw hd
      split at h <;> cases h
      · exact absurd ‹_› (hu frame down (by simp [hw]) hd)
      · rename_i result hr
        have hrep : replies s.down = result :: replies down := by simp [replies, hd, hr]
        rw [hrep] at hdown
        refine ⟨?_, ?_, ?_, ?_⟩
        · simpa [hreturned] using hsent
        · simpa [hreturned] using hup
        · simpa [hreturned] using hdown
        · simp [hreturned, hwaiting, hw]
    · cases h

/-- Every request is sent once; the calls return in order, each the answer to its own request. -/
structure InOrder (s : Exchange) (os : List Output) : Prop where
  sent : sents os = calls os
  returned : (calls os).length = (returns os).length + s.waiting.toList.length
  own : ∀ (k : Nat) (result : Except PyErr CMD), (returns os)[k]? = some result → ∃ raw reply,
    (calls os)[k]? = some raw ∧ (answers os)[k]? = some (raw, reply) ∧ answer (.ok reply) = some result

theorem Matched.inOrder (hp : Matched s os) : InOrder s os := by
  refine ⟨hp.sent, hp.waiting, fun k result hk => ?_⟩
  have hmap : ((answers os).map fun p => WSNETSSPIProxy.answer (.ok p.2))[k]? = some (some result) := by
    rw [hp.down, List.getElem?_map, List.getElem?_append_left (List.getElem?_eq_some_iff.1 hk).1, hk]
    rfl
  rw [List.getElem?_map] at hmap
  obtain ⟨p, hp', hr⟩ := Option.map_eq_some_iff.1 hmap
  refine ⟨p.1, p.2, ?_, hp', hr⟩
  rw [hp.up, List.getElem?_append_left (by simpa using (List.getElem?_eq_some_iff.1 hp').1), List.getElem?_map, hp']
  rfl

end Exchange

/-- `sr` sends its command once if and only if no notification comes before the reply; and as long as no call
receives one, every call gets the answer to its own request. -/
theorem WSNETSSPIProxy.sr_sentOnce_iff (agentid : Option Bytes) :
    (∀ (cmd : CMD) (zs : List Recv) (reply : Recv) (rest : List Recv) (result : Except PyErr CMD),
      (∀ z ∈ zs, answer z = none) → answer reply = some result →
        (SentOnce agentid cmd (zs ++ reply :: rest) rest result ↔ (∃ raw, request agentid cmd = .ok raw) ∧ zs = [])) ∧
    ∀ (es : List Exchange.Event) (s : Exchange) (os : List Exchange.Output),
      Run Exchange.step { agentid } es s os → StepsMeet Exchange.step Exchange.Undisturbed { agentid } es →
        Exchange.InOrder s os := by
  refine ⟨fun cmd zs reply rest result => sentOnce_iff, fun es s os h hu => ?_⟩
  have hp : Exchange.Matched s os := h.invariant_where hu (fun hu hp hs => hp.step hu hs) ⟨rfl, rfl, rfl, rfl⟩
  exact hp.inOrder

/-! ### Two calls -/

def proxyToken : Bytes := List.replicate 16 7

def sequenceReply : Bytes := [0, 0, 0, 32, 0, 20] ++ proxyToken ++ [0, 0, 0, 1, 48, 0, 0, 0, 1, 1]

def sessionkeyReply : Bytes := [0, 0, 0, 32, 0, 18] ++ proxyToken ++ [0, 0, 0, 1, 48, 0, 0, 0, 1, 2]

/-- An AGENTINFO with the zero token, as the router sends it. -/
def announcement : Bytes :=
  [0, 0, 0, 71, 0, 101] ++ zeroToken ++ [0, 0, 0, 16] ++ proxyToken ++ [0, 0, 0, 1, 49] ++ List.replicate 24 0

/-- `get_sequenceno` and `get_sessionkey`. -/
def twoCalls : List Exchange.Event :=
  [.call (.SEQUENCE { token := proxyToken }), .answer sequenceReply, .recv,
    .call (.SESSIONKEY { token := proxyToken }), .answer sessionkeyReply, .recv]

theorem WSNETSSPIProxy.sr_sentOnce_twoCalls :
    SentOnce none (.SEQUENCE { token := proxyToken }) [.ok sequenceReply] [] (CMD.fromBytes sequenceReply) ∧
      ∃ s os, Run Exchange.step { agentid := none } twoCalls s os ∧ Exchange.InOrder s os := by
  obtain ⟨hone, hrun⟩ := sr_sentOnce_iff none
  refine ⟨(hone _ [] (.ok sequenceReply) [] _ (by simp) rfl).2 ⟨⟨_, rfl⟩, rfl⟩, _, _, .of_exec rfl,
    hrun twoCalls _ _ (.of_exec rfl) ?_⟩
  refine .cons trivial rfl (.cons trivial rfl (.cons ?_ rfl (.cons trivial rfl (.cons trivial rfl (.cons ?_ rfl .nil)))))
  · rintro frame down - ⟨⟩
    decide
  · rintro frame down - ⟨⟩
    decide

/-- An agent joins before the answer to the first of two calls: the request is sent twice, and the second call gets
the answer to the first request again. -/
theorem WSNETSSPIProxy.not_sentOnce_announcement :
    ¬ SentOnce none (.SEQUENCE { token := proxyToken }) [.ok announcement, .ok sequenceReply] []
        (CMD.fromBytes sequenceReply) ∧
      ∃ s os, Run Exchange.step { agentid := none }
        [.call (.SEQUENCE { token := proxyToken }), .notify announcement, .answer sequenceReply, .recv, .recv,
          .answer sequenceReply, .call (.SESSIONKEY { token := proxyToken }), .answer sessionkeyReply, .recv] s os ∧
        ¬ Exchange.InOrder s os ∧ Exchange.returns os = [CMD.fromBytes sequenceReply, CMD.fromBytes sequenceReply] := by
  refine ⟨?_, _, _, .of_exec rfl, fun h => ?_, rfl⟩
  · rintro ⟨raw, hraw, h⟩
    cases hraw
    revert h
    decide
  · have := h.sent
    revert this
    decide

end Wsnet.Operator
