import Wsnet.Pyodide.TcpServer

/-!
# Which handler gets what

A message is dispatched by its connection token alone: the first one of a token makes a handler, and the handler's
queue gets the first one, unless it is empty, and all later ones (`Dispatched`).
-/

namespace Wsnet.Pyodide

open WSNetworkServerTCPReader (items QueueItem.data)

/-- What is put into the queue of a connection whose messages have the data `ds`. -/
def queued : List Bytes → List Bytes
  | [] => []
  | d :: ds => (if d = [] then [] else [d]) ++ ds

theorem queued_append {ds : List Bytes} (h : ds ≠ []) (d : Bytes) : queued (ds ++ [d]) = queued ds ++ [d] := by
  cases ds with
  | nil => exact absurd rfl h
  | cons => simp [queued]

/-- The data of the messages of one connection. -/
def dataOf (connectiontoken : Bytes) (cmds : List WSNServerSocketData) : List Bytes :=
  (cmds.filter fun cmd => cmd.connectiontoken = connectiontoken).map (·.data)

section dataOf
variable {ct : Bytes} {cmds cmds' : List WSNServerSocketData} {cmd : WSNServerSocketData}

@[simp] theorem dataOf_append : dataOf ct (cmds ++ cmds') = dataOf ct cmds ++ dataOf ct cmds' := by
  rw [dataOf, List.filter_append, List.map_append]
  rfl

theorem dataOf_singleton : dataOf cmd.connectiontoken [cmd] = [cmd.data] := by simp [dataOf]

theorem dataOf_singleton_ne (h : cmd.connectiontoken ≠ ct) : dataOf ct [cmd] = [] := by simp [dataOf, h]

theorem dataOf_eq_nil_iff : dataOf ct cmds = [] ↔ ct ∉ cmds.map (·.connectiontoken) := by
  simp [dataOf, List.filter_eq_nil_iff]

end dataOf

namespace Handler
variable {h h' : Handler} {e : WSNetworkServerTCPReader.Event} {o : List WSNetworkServerTCPReader.Output}

/-- A step is one of the reader; an item is the first of the queue. -/
theorem step_eq_some (hs : h.step e = some (h', o)) :
    h.reader.step e = some (h'.reader, o) ∧ h'.initial_cmd = h.initial_cmd ∧
      ((∃ i, e = .item i ∧ h.in_queue = i :: h'.in_queue) ∨ items [e] = [] ∧ h'.in_queue = h.in_queue) := by
  obtain ⟨initial_cmd, in_queue, reader⟩ := h
  cases e with
  | item i =>
    cases in_queue with
    | nil => cases hs
    | cons i' in_queue =>
      simp only [step] at hs
      split at hs
      · obtain ⟨r, hr, heq⟩ := Option.map_eq_some_iff.1 hs
        obtain ⟨rfl, rfl⟩ := Prod.mk.inj heq
        exact ⟨hr, rfl, .inl ⟨i, rfl, by rw [‹i = i'›]⟩⟩
      · cases hs
  | _ =>
    simp only [step] at hs
    obtain ⟨r, hr, heq⟩ := Option.map_eq_some_iff.1 hs
    obtain ⟨rfl, rfl⟩ := Prod.mk.inj heq
    exact ⟨hr, rfl, .inr ⟨rfl, rfl⟩⟩

end Handler

namespace WSNetworkTCPServer
variable {cmds : List WSNServerSocketData} {cmd : WSNServerSocketData} {es : List Event} {os o : List Output}
  {s s' : WSNetworkTCPServer} {e : Event} {h h' : Handler} {k : Nat}

/-- What happens to the reader of the handler `k`, and what its calls return. -/
def readerEvents (k : Nat) (es : List Event) : List WSNetworkServerTCPReader.Event :=
  es.filterMap fun
    | .reader k' e => if k' = k then some e else none
    | _ => none

def readerOutputs (k : Nat) (os : List Output) : List WSNetworkServerTCPReader.Output :=
  os.filterMap fun
    | .reader k' o => if k' = k then some o else none
    | _ => none

@[simp] theorem readerEvents_append (es es' : List Event) :
    readerEvents k (es ++ es') = readerEvents k es ++ readerEvents k es' := List.filterMap_append

@[simp] theorem readerOutputs_append (os os' : List Output) :
    readerOutputs k (os ++ os') = readerOutputs k os ++ readerOutputs k os' := List.filterMap_append

theorem readerEvents_reader (j : Nat) (e : WSNetworkServerTCPReader.Event) :
    readerEvents k [.reader j e] = if j = k then [e] else [] := by
  by_cases h : j = k <;> simp [readerEvents, h]

theorem readerOutputs_reader (j : Nat) (o : List WSNetworkServerTCPReader.Output) :
    readerOutputs k (o.map (.reader j)) = if j = k then o else [] := by
  by_cases h : j = k <;> simp [readerOutputs, h, List.filterMap_map]

/-- The handler `k` behind the messages `cmds`: its queue, and what it has read. -/
structure Handed (cmds : List WSNServerSocketData) (es : List WSNetworkServerTCPReader.Event)
    (os : List WSNetworkServerTCPReader.Output) (h : Handler) : Prop where
  queue : queued (dataOf h.connectiontoken cmds) = items es ++ h.in_queue.map QueueItem.data
  messages : ∀ i ∈ h.in_queue, ∃ cmd, i = ⟨some cmd, none⟩
  reads : ∀ e ∈ es, e.OnlyReads
  run : Run WSNetworkServerTCPReader.step {} es h.reader os

/-- The client has a handler for each connection of which it has got a message. -/
structure Dispatched (cmds : List WSNServerSocketData) (es : List Event) (os : List Output) (s : WSNetworkTCPServer) :
    Prop where
  connected : s.disconnected = false
  running : s.in_cancelled = false
  table : ∀ ct k, s.connections.get? ct = some k ↔ ∃ h, s.handlers[k]? = some h ∧ h.connectiontoken = ct
  known : ∀ ct, s.connections.contains ct = true ↔ ct ∈ cmds.map (·.connectiontoken)
  handed : ∀ k h, s.handlers[k]? = some h → Handed cmds (readerEvents k es) (readerOutputs k os) h
  unused : ∀ k, s.handlers[k]? = none → readerEvents k es = [] ∧ readerOutputs k os = []

/-- A step of the reader of one handler. -/
theorem Handed.step {es : List WSNetworkServerTCPReader.Event} {os o : List WSNetworkServerTCPReader.Output}
    {e : WSNetworkServerTCPReader.Event} (hp : Handed cmds es os h) (he : (∃ i, e = .item i) ∨ e.OnlyReads)
    (hs : h.step e = some (h', o)) : Handed cmds (es ++ [e]) (os ++ o) h' := by
  obtain ⟨hreader, hcmd, hqueue⟩ := Handler.step_eq_some hs
  have hct : h'.connectiontoken = h.connectiontoken := congrArg (·.connectiontoken) hcmd
  have hrun := hp.run.append (.single hreader)
  rcases hqueue with ⟨i, rfl, hq⟩ | ⟨hnone, hq⟩
  · obtain ⟨cmd, rfl⟩ := hp.messages i (by rw [hq]; exact List.mem_cons_self)
    refine ⟨?_, fun i hi => hp.messages i (by rw [hq]; exact List.mem_cons_of_mem _ hi), ?_, hrun⟩
    · rw [hct, hp.queue, hq, WSNetworkServerTCPReader.items_append, List.append_assoc]
      rfl
    · intro e he
      rcases List.mem_append.1 he with he | he
      · exact hp.reads e he
      · rw [List.mem_singleton.1 he]
        exact ⟨cmd, rfl⟩
  · refine ⟨?_, fun i hi => hp.messages i (by rwa [hq] at hi), ?_, hrun⟩
    · rw [hct, hp.queue, hq, WSNetworkServerTCPReader.items_append, hnone, List.append_nil]
    · intro e' he'
      rcases List.mem_append.1 he' with he' | he'
      · exact hp.reads e' he'
      · rw [List.mem_singleton.1 he']
        rcases he with ⟨i, rfl⟩ | he
        · cases hnone
        · exact he

/-- Another message of its connection is put into the queue. -/
theorem Handed.put {es : List WSNetworkServerTCPReader.Event} {os : List WSNetworkServerTCPReader.Output}
    (hp : Handed cmds es os h) (hct : cmd.connectiontoken = h.connectiontoken)
    (hmem : h.connectiontoken ∈ cmds.map (·.connectiontoken)) : Handed (cmds ++ [cmd]) es os (h.put cmd) where
  queue := by
    have hne : dataOf h.connectiontoken cmds ≠ [] := fun hnil => dataOf_eq_nil_iff.1 hnil hmem
    rw [show (h.put cmd).connectiontoken = h.connectiontoken from rfl, dataOf_append, ← hct, dataOf_singleton, hct,
      queued_append hne, hp.queue, List.append_assoc]
    simp [Handler.put, QueueItem.data]
  messages i hi := by
    rcases List.mem_append.1 hi with hi | hi
    · exact hp.messages i hi
    · exact ⟨cmd, List.mem_singleton.1 hi⟩
  reads := hp.reads
  run := hp.run

/-- A message of another connection changes nothing. -/
theorem Handed.other {es : List WSNetworkServerTCPReader.Event} {os : List WSNetworkServerTCPReader.Output}
    (hp : Handed cmds es os h) (hct : cmd.connectiontoken ≠ h.connectiontoken) : Handed (cmds ++ [cmd]) es os h :=
  { hp with queue := by rw [dataOf_append, dataOf_singleton_ne hct, List.append_nil, hp.queue] }

namespace Dispatched

/-- What happens elsewhere changes nothing. -/
theorem after (hp : Dispatched cmds es os s) (he : ∀ k, readerEvents k [e] = []) (pc : Pc) :
    Dispatched cmds (es ++ [e]) os { s with pc } where
  connected := hp.connected
  running := hp.running
  table := hp.table
  known := hp.known
  handed k h hk := by
    rw [readerEvents_append, he, List.append_nil]
    exact hp.handed k h hk
  unused k hk := by
    rw [readerEvents_append, he, List.append_nil]
    exact hp.unused k hk

theorem reader {e : WSNetworkServerTCPReader.Event} (hp : Dispatched cmds es os s)
    (he : (∃ i, e = .item i) ∨ e.OnlyReads) (hs : s.step (.reader k e) = some (s', o)) :
    Dispatched cmds (es ++ [.reader k e]) (os ++ o) s' ∧ s'.pc = s.pc := by
  simp only [step] at hs
  cases hk : s.handlers[k]? with
  | none => simp [hk] at hs
  | some h =>
    simp only [hk] at hs
    obtain ⟨⟨h', o'⟩, hstep, heq⟩ := Option.map_eq_some_iff.1 hs
    cases heq
    have hlt : k < s.handlers.length := (List.getElem?_eq_some_iff.1 hk).1
    have hct : h'.connectiontoken = h.connectiontoken :=
      congrArg (·.connectiontoken) (Handler.step_eq_some hstep).2.1
    refine ⟨⟨hp.connected, hp.running, fun ct j => ?_, hp.known, fun j d hj => ?_, fun j hj => ?_⟩, rfl⟩
    · rw [hp.table, List.getElem?_set]
      by_cases hne : k = j
      · subst hne
        rw [if_pos rfl, if_pos hlt, hk]
        simp [hct]
      · simp [hne]
    · dsimp only at hj
      rw [readerEvents_append, readerEvents_reader, readerOutputs_append, readerOutputs_reader]
      by_cases hne : k = j
      · subst hne
        rw [List.getElem?_set_self hlt] at hj
        cases hj
        rw [if_pos rfl, if_pos rfl]
        exact (hp.handed k h hk).step he hstep
      · rw [List.getElem?_set_ne hne] at hj
        rw [if_neg hne, if_neg hne, List.append_nil, List.append_nil]
        exact hp.handed j d hj
    · dsimp only at hj
      have hne : k ≠ j := by
        rintro rfl
        rw [List.getElem?_set_self hlt] at hj
        cases hj
      rw [List.getElem?_set_ne hne] at hj
      rw [readerEvents_append, readerEvents_reader, if_neg hne, readerOutputs_append, readerOutputs_reader, if_neg hne,
        List.append_nil, List.append_nil]
      exact hp.unused j hj

/-- A message of a connection that is known goes into its queue. -/
theorem put (hp : Dispatched cmds es os s) (hmem : cmd.connectiontoken ∈ cmds.map (·.connectiontoken)) :
    Dispatched (cmds ++ [cmd]) es os (s.put cmd) ∧ (s.put cmd).pc = s.pc := by
  obtain ⟨k, hk⟩ := Dict.contains_iff.1 ((hp.known cmd.connectiontoken).2 hmem)
  obtain ⟨h, hh, hct⟩ := (hp.table _ _).1 hk
  rw [WSNetworkTCPServer.put, hk]
  refine ⟨⟨hp.connected, hp.running, fun ct j => ?_, fun ct => ?_, fun j d hj => ?_, fun j hj => ?_⟩, rfl⟩
  · rw [hp.table, List.getElem?_modify]
    by_cases hne : k = j
    · subst hne
      simp [hh, Handler.put, Handler.connectiontoken]
    · simp [hne]
  · rw [hp.known, List.map_append, List.mem_append, List.map_singleton, List.mem_singleton]
    refine (or_iff_left_of_imp ?_).symm
    rintro rfl
    exact hmem
  · dsimp only at hj
    rw [List.getElem?_modify] at hj
    by_cases hne : k = j
    · subst hne
      simp only [hh, if_true, Option.map_eq_map, Option.map_some, Option.some.injEq] at hj
      subst hj
      exact (hp.handed k h hh).put hct.symm (by rwa [hct])
    · simp only [hne, if_false, Option.map_eq_map, Option.map_id'] at hj
      refine (hp.handed j d hj).other fun heq => hne ?_
      have := (hp.table cmd.connectiontoken j).2 ⟨d, hj, heq.symm⟩
      rw [hk] at this
      exact Option.some.inj this
  · dsimp only at hj
    rw [List.getElem?_modify] at hj
    exact hp.unused j (by simpa using hj)

/-- The first message of a connection makes a handler. -/
theorem opened (hp : Dispatched cmds es os s) (hnew : cmd.connectiontoken ∉ cmds.map (·.connectiontoken)) :
    Dispatched (cmds ++ [cmd]) es os (s.opened cmd).1 ∧ (s.opened cmd).1.pc = .getting ∧ (s.opened cmd).2 = [] := by
  have hnone : s.connections.get? cmd.connectiontoken = none :=
    Dict.contains_eq_false_iff.1 (Bool.eq_false_iff.2 fun hc => hnew ((hp.known _).1 hc))
  -- the new handler, with what it gets at once
  obtain ⟨q, hq, hqueue, heq⟩ : ∃ q : List QueueItem, (∀ i ∈ q, ∃ cmd, i = ⟨some cmd, none⟩) ∧
      queued [cmd.data] = q.map QueueItem.data ∧ s.opened cmd = ({ s with
        pc := .getting, connections := s.connections.set cmd.connectiontoken s.handlers.length,
        handlers := s.handlers ++ [{ initial_cmd := cmd, in_queue := q }] }, []) := by
    by_cases hdata : cmd.data = []
    · refine ⟨[], by simp, by simp [queued, hdata], ?_⟩
      simp [WSNetworkTCPServer.opened, hdata, handle_new_connection, loop, hp.connected]
    · refine ⟨[⟨some cmd, none⟩], by simp, by simp [queued, hdata, QueueItem.data], ?_⟩
      have hput : (s.handlers ++ [({ initial_cmd := cmd } : Handler)]).modify s.handlers.length (·.put cmd) =
          s.handlers ++ [{ initial_cmd := cmd, in_queue := [⟨some cmd, none⟩] }] := by
        rw [List.modify_eq_take_cons_drop (by simp)]
        simp [Handler.put]
      simp [WSNetworkTCPServer.opened, hdata, handle_new_connection, WSNetworkTCPServer.put, loop, hp.connected, hput]
  rw [heq]
  have hlast : (s.handlers ++ [{ initial_cmd := cmd, in_queue := q }])[s.handlers.length]? =
      some { initial_cmd := cmd, in_queue := q } := by simp
  have hcases : ∀ {j d}, (s.handlers ++ [{ initial_cmd := cmd, in_queue := q }])[j]? = some d →
      s.handlers[j]? = some d ∨ j = s.handlers.length ∧ d = { initial_cmd := cmd, in_queue := q } := by
    intro j d hj
    rcases lt_trichotomy j s.handlers.length with hlt | rfl | hlt
    · exact .inl (by rwa [List.getElem?_append_left hlt] at hj)
    · exact .inr ⟨rfl, Option.some.inj (hj.symm.trans hlast)⟩
    · rw [List.getElem?_eq_none (by simp; omega)] at hj
      cases hj
  refine ⟨⟨hp.connected, hp.running, fun ct j => ?_, fun ct => ?_, fun j d hj => ?_, fun j hj => ?_⟩, rfl, rfl⟩
  · rw [Dict.get?_set]
    by_cases hct : ct = cmd.connectiontoken
    · subst hct
      rw [if_pos rfl, Option.some.injEq]
      constructor
      · rintro rfl
        exact ⟨_, hlast, rfl⟩
      · rintro ⟨d, hd, hct⟩
        rcases hcases hd with hd | ⟨rfl, -⟩
        · rw [(hp.table _ _).2 ⟨d, hd, hct⟩] at hnone
          cases hnone
        · rfl
    · rw [if_neg hct, hp.table]
      refine exists_congr fun d => and_congr_left fun hd => ⟨fun hj => ?_, fun hj => ?_⟩
      · rwa [List.getElem?_append_left (List.getElem?_eq_some_iff.1 hj).1]
      · rcases hcases hj with hj | ⟨-, rfl⟩
        · exact hj
        · exact absurd hd.symm hct
  · rw [Dict.contains_iff_mem_keys, Dict.mem_keys_set, ← Dict.contains_iff_mem_keys, hp.known, List.map_append,
      List.mem_append, List.map_singleton, List.mem_singleton, or_comm]
  · rcases hcases hj with hj | ⟨rfl, rfl⟩
    · refine (hp.handed j d hj).other fun heq => hnew ((hp.known _).1 (Dict.contains_iff.2 ⟨j, ?_⟩))
      exact (hp.table _ _).2 ⟨d, hj, heq.symm⟩
    · obtain ⟨he, ho⟩ := hp.unused s.handlers.length (List.getElem?_eq_none le_rfl)
      rw [he, ho]
      refine ⟨?_, hq, by simp, .nil _⟩
      have hof : dataOf cmd.connectiontoken (cmds ++ [cmd]) = [cmd.data] := by
        rw [dataOf_append, dataOf_eq_nil_iff.2 hnew, dataOf_singleton, List.nil_append]
      exact (congrArg queued hof).trans hqueue
  · refine hp.unused j (List.getElem?_eq_none ?_)
    have := List.getElem?_eq_none_iff.1 hj
    rw [List.length_append] at this
    omega

end Dispatched

/-- What `internal_in_q.get()` has returned. -/
def received (es : List Event) : List Bytes :=
  es.filterMap fun
    | .message data => some data
    | _ => none

@[simp] theorem received_append (es es' : List Event) : received (es ++ es') = received es ++ received es' :=
  List.filterMap_append

/-- What is handed to the websocket. -/
def sent (os : List Output) : List Bytes :=
  os.filterMap fun
    | .frame b => some b
    | _ => none

theorem sent_reader (o : List WSNetworkServerTCPReader.Output) : sent (o.map (.reader k)) = [] := by
  rw [sent, List.filterMap_map, List.filterMap_eq_nil_iff]
  exact fun x _ => rfl

/-- `__handle_in` has taken the messages `cmds`, and waits for the next or makes the handler of the last of them. -/
inductive Takes (es : List Event) (os : List Output) (s : WSNetworkTCPServer) : List WSNServerSocketData → Prop
  | getting {cmds : List WSNServerSocketData} (hpc : s.pc = .getting) (h : Dispatched cmds es os s) : Takes es os s cmds
  | opening {cmds : List WSNServerSocketData} {cmd : WSNServerSocketData} (hpc : s.pc = .opening cmd)
    (hnew : cmd.connectiontoken ∉ cmds.map (·.connectiontoken)) (h : Dispatched cmds es os s) :
    Takes es os s (cmds ++ [cmd])

/-- No websocket closes, nobody shuts the server down, and its handlers call nothing but `read`. -/
def Event.OnlyReads : Event → Prop
  | .message _ | .opened => True
  | .reader _ e => (∃ i, e = .item i) ∨ e.OnlyReads
  | .disconnect | .terminate | .close | .cancelled => False

/-- Where the client of a server is: before its answer, without a server, or serving. -/
inductive Phase (es : List Event) (os : List Output) (s : WSNetworkTCPServer) : Prop
  | connecting (hpc : s.pc = .connecting) (hr : received es = []) (h : Dispatched [] es os s)
  | failed (hpc : s.pc = .failed) {b : Bytes} {bs : List Bytes} (hr : received es = b :: bs)
    (hb : ∀ c, CMD.fromBytes b ≠ .ok (.CONTINUE c)) (h : Dispatched [] es os s)
  | serving {b : Bytes} {c : WSNContinue} {bs : List Bytes} {cmds : List WSNServerSocketData}
    (hr : received es = b :: bs) (hb : CMD.fromBytes b = .ok (.CONTINUE c))
    (hbs : List.Forall₂ (fun b cmd => CMD.fromBytes b = .ok (.SDSRV cmd)) bs cmds) (h : Takes es os s cmds)

theorem loop_eq (h : s.disconnected = false) : s.loop = ({ s with pc := .getting }, []) :=
  if_neg (by rw [h]; exact Bool.false_ne_true)

theorem Phase.step (hp : Phase es os s) (he : e.OnlyReads)
    (hm : ∀ data, e = .message data → received es ≠ [] → ∃ cmd, CMD.fromBytes data = .ok (.SDSRV cmd))
    (hs : s.step e = some (s', o)) : Phase (es ++ [e]) (os ++ o) s' ∧ sent o = [] := by
  cases e with
  | disconnect | terminate | close | cancelled => cases he
  | message data =>
    cases hp with
    | connecting hpc hr h =>
      simp only [WSNetworkTCPServer.step, hpc, Option.some.injEq] at hs
      have hr' : received (es ++ [.message data]) = [data] := by rw [received_append, hr]; rfl
      have h' := h.after (e := .message data) fun _ => rfl
      rw [answer] at hs
      split at hs
      · rename_i c hc
        rw [loop_eq (by exact h.connected)] at hs
        cases hs
        rw [List.append_nil]
        exact ⟨.serving hr' hc .nil (.getting rfl (h' .getting)), rfl⟩
      · rename_i hc
        cases hs
        rw [List.append_nil]
        exact ⟨.failed rfl hr' hc (h' .failed), rfl⟩
    | failed hpc => simp [WSNetworkTCPServer.step, hpc] at hs
    | @serving b c bs cmds hr hb hbs h =>
      obtain ⟨cmd, hcmd⟩ := hm data rfl (by simp [hr])
      have hr' : received (es ++ [.message data]) = b :: (bs ++ [data]) := by rw [received_append, hr]; rfl
      have hbs' := List.rel_append hbs (.cons hcmd .nil)
      cases h with
      | opening hpc => simp [WSNetworkTCPServer.step, hpc] at hs
      | getting hpc h =>
        have hstep : s.step (.message data) = some (s.handle_in data) := by
          simp [WSNetworkTCPServer.step, hpc, h.running]
        simp only [handle_in, hcmd, handle_new_msg] at hstep
        replace hs := hstep.symm.trans hs
        have h' {s : WSNetworkTCPServer} {cmds} (h : Dispatched cmds es os s) :=
          h.after (e := .message data) fun _ => rfl
        split_ifs at hs with hc
        · obtain ⟨h₁, hpc₁⟩ := h.put ((h.known _).1 hc)
          rw [loop_eq h₁.connected] at hs
          cases hs
          rw [List.append_nil]
          exact ⟨.serving hr' hb hbs' (.getting rfl (h' h₁ .getting)), rfl⟩
        · cases hs
          rw [List.append_nil]
          exact ⟨.serving hr' hb hbs' (.opening rfl (fun hmem => hc ((h.known _).2 hmem)) (h' h _)), rfl⟩
  | opened =>
    simp only [WSNetworkTCPServer.step] at hs
    have hr' : received (es ++ [.opened]) = received es := by rw [received_append]; exact List.append_nil _
    cases hp with
    | connecting hpc => simp [hpc] at hs
    | failed hpc => simp [hpc] at hs
    | serving hr hb hbs h =>
      cases h with
      | getting hpc => simp [hpc] at hs
      | opening hpc hnew h =>
        simp only [hpc, h.running, Bool.false_eq_true, if_false, Option.some.injEq] at hs
        obtain ⟨h₁, hpc₁, hnil⟩ := h.opened hnew
        rw [hs] at h₁ hpc₁ hnil
        dsimp only at h₁ hpc₁ hnil
        subst hnil
        have h₂ := h₁.after (e := .opened) (fun _ => rfl) .getting
        rw [← hpc₁] at h₂
        rw [List.append_nil]
        exact ⟨.serving (hr'.trans hr) hb hbs (.getting hpc₁ h₂), rfl⟩
  | reader k e =>
    have hr' : received (es ++ [.reader k e]) = received es := by rw [received_append]; exact List.append_nil _
    have hsent : sent o = [] := by
      simp only [WSNetworkTCPServer.step] at hs
      split at hs
      · obtain ⟨r, -, heq⟩ := Option.map_eq_some_iff.1 hs
        cases heq
        exact sent_reader r.2
      · cases hs
    refine ⟨?_, hsent⟩
    cases hp with
    | connecting hpc hr h =>
      obtain ⟨h', hpc'⟩ := h.reader he hs
      exact .connecting (hpc'.trans hpc) (hr'.trans hr) h'
    | failed hpc hr hb h =>
      obtain ⟨h', hpc'⟩ := h.reader he hs
      exact .failed (hpc'.trans hpc) (hr'.trans hr) hb h'
    | serving hr hb hbs h =>
      refine .serving (hr'.trans hr) hb hbs ?_
      cases h with
      | getting hpc h =>
        obtain ⟨h', hpc'⟩ := h.reader he hs
        exact .getting (hpc'.trans hpc) h'
      | opening hpc hnew h =>
        obtain ⟨h', hpc'⟩ := h.reader he hs
        exact .opening (hpc'.trans hpc) hnew h'

end WSNetworkTCPServer

end Wsnet.Pyodide
