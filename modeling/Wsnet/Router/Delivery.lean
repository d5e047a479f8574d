import Wsnet.Protocol.Kept
import Wsnet.Router.Commands

/-!
# Who gets what

Commands go from the operators to the agents through `out_q`, and frames the other way through `in_q`. One task
empties each queue, so that what is put into it and the turns of the task correspond one by one and in order;
`Forwards` and `Delivers` say what each turn does. The operator of a frame is found by a key that joins two tokens
of sixteen bytes, and the entry is there from the first command on until a send to the operator fails.
-/

namespace Wsnet.Router
variable {s s' : Router} {e : Event} {o : List Output} {es : List Event} {agentid opid token data b : Bytes} {c : CMD}

/-! ### What the servers say themselves -/

/-- A message that `OPServer` has made itself. -/
def Output.IsOwn : Output → Prop
  | .send (.operator _) data => ∃ c : CMD, c.toBytes = .ok data ∧ c.type ∈ [CMDType.OK, .ERR, .AGENTINFO]
  | .send (.agent _) _ | .notFound _ _ => False
  | .sent _ _ => True

theorem own_sendOp {pc : Bytes → OpPc} (hc : c.type ∈ [CMDType.OK, .ERR, .AGENTINFO]) :
    ∀ x ∈ (s.sendOp opid c pc).2, x.IsOwn := by
  unfold sendOp
  split
  · intro x hx
    rw [List.mem_singleton.1 hx]
    exact ⟨c, ‹_›, hc⟩
  · intro x hx
    cases hx

theorem type_listAgentsReply {reply : CMD} (h : listAgentsReply token agentid c = some reply) :
    reply.type = .AGENTINFO := by
  unfold listAgentsReply at h
  split at h <;> cases h <;> rfl

theorem own_listNext {it : Dict.Iter} : ∀ x ∈ (s.listNext opid token it).2, x.IsOwn := by
  unfold listNext
  split
  · intro x hx
    cases hx
  · exact own_sendOp (by simp [CMD.type])
  · split
    · rename_i reply hreply
      obtain ⟨c, -, hc⟩ := Option.bind_eq_some_iff.1 hreply
      exact own_sendOp (by simp [type_listAgentsReply hc])
    · intro x hx
      cases hx

theorem own_opFrame : ∀ x ∈ (s.opFrame opid data).2, x.IsOwn := by
  unfold opFrame
  dsimp only
  split
  · split
    · split
      · exact own_listNext
      · intro x hx
        cases hx
    · intro x hx
      cases hx
  · split
    · intro x hx
      cases hx
    · exact own_sendOp (by simp [CMD.type])

theorem own_announceNext {it : Dict.Iter} (hc : c.type = .AGENTINFO) : ∀ x ∈ (s.announceNext c it).2, x.IsOwn := by
  unfold announceNext
  split
  · intro x hx
    cases hx
  · intro x hx
    cases hx
  · split
    · intro x hx
      rw [List.mem_singleton.1 hx]
      exact ⟨c, ‹_›, by simp [hc]⟩
    · intro x hx
      cases hx

/-- What is announced is an `AGENTINFO`. -/
def Announces (t : SignalTask) : Prop := ∀ (c : CMD) it opid data, t = .announcing c it opid data → c.type = .AGENTINFO

theorem announces_idle : Announces .idle := by
  rintro c it opid data ⟨⟩

theorem announces_announceNext {it : Dict.Iter} (hc : c.type = .AGENTINFO) :
    Announces (s.announceNext c it).1.signalTask := by
  unfold announceNext
  split
  · exact announces_idle
  · exact announces_idle
  · split
    · rintro _ _ _ _ ⟨⟩
      exact hc
    · exact announces_idle

theorem signalTask_sendOp (pc : Bytes → OpPc) : (s.sendOp opid c pc).1.signalTask = s.signalTask := by
  unfold sendOp
  split <;> rfl

theorem signalTask_listNext (it : Dict.Iter) : (s.listNext opid token it).1.signalTask = s.signalTask := by
  unfold listNext
  split
  · rfl
  · exact signalTask_sendOp _
  · split
    · exact signalTask_sendOp _
    · rfl

theorem signalTask_opFrame : (s.opFrame opid data).1.signalTask = s.signalTask := by
  unfold opFrame
  dsimp only
  split
  · split
    · split
      · exact signalTask_listNext _
      · rfl
    · rfl
  · split
    · rfl
    · exact signalTask_sendOp _

/-- Only the tasks that empty the queues send what others have sent. -/
theorem own_of_step (h : s.step e = some (s', o)) (hn : Announces s.signalTask) :
    Announces s'.signalTask ∧ (e ≠ .forward → e ≠ .deliver → ∀ x ∈ o, x.IsOwn) := by
  have hnil : ∀ x ∈ ([] : List Output), x.IsOwn := fun x hx => by cases hx
  have hsent : ∀ {peer : Peer} {data : Bytes} {o : List Output}, (∀ x ∈ o, x.IsOwn) →
      ∀ x ∈ .sent peer data :: o, x.IsOwn := by
    intro peer data o ho x hx
    rcases List.mem_cons.1 hx with rfl | hx
    · trivial
    · exact ho x hx
  cases step_cases h with
  | agentConnect => split <;> exact ⟨hn, fun _ _ => hnil⟩
  | agentFrame data =>
    refine ⟨?_, fun _ _ => hnil⟩
    unfold agentFrame
    dsimp only
    split
    · split <;> exact hn
    · exact hn
  | opConnect => split <;> exact ⟨hn, fun _ _ => hnil⟩
  | forward =>
    refine ⟨?_, fun h => absurd rfl h⟩
    unfold forward
    split <;> exact hn
  | forwarded | opReplied | delivered => exact ⟨hn, fun _ _ => hsent hnil⟩
  | agentLost | forwardFailed | opLost | opSendFailed | deliverFailed => exact ⟨hn, fun _ _ => hnil⟩
  | opFrame data => exact ⟨by rw [signalTask_opFrame]; exact hn, fun _ _ => own_opFrame⟩
  | opListed => exact ⟨by rw [signalTask_listNext]; exact hn, fun _ _ => hsent own_listNext⟩
  | deliver =>
    refine ⟨?_, fun _ h => absurd rfl h⟩
    unfold deliver
    dsimp only
    split <;> exact hn
  | @signal x rest ht hq =>
    cases x with
    | AGENTIN agentid data =>
      simp only [signal]
      split
      · rename_i hreply
        exact ⟨announces_announceNext (type_listAgentsReply hreply), fun _ _ =>
          own_announceNext (type_listAgentsReply hreply)⟩
      · exact ⟨hn, fun _ _ => hnil⟩
    | AGENTOUT agentid => exact ⟨hn, fun _ _ => hnil⟩
  | signalSent ht =>
    have hc := hn _ _ _ _ ht
    exact ⟨announces_announceNext hc, fun _ _ => hsent (own_announceNext hc)⟩
  | signalSendFailed ht =>
    have hc := hn _ _ _ _ ht
    exact ⟨announces_announceNext hc, fun _ _ => own_announceNext hc⟩
  | signalRaised => exact ⟨announces_idle, fun _ _ => hnil⟩

/-! ### The ids -/

/-- Every id that the servers know of an agent has sixteen bytes. -/
structure Sized (d : Directory) : Prop where
  clients : ∀ id ∈ d.clients.keys, id.length = 16
  signals : ∀ id reply, .AGENTIN id reply ∈ d.signal_q → id.length = 16
  agents : ∀ id ∈ d.agents.keys, id.length = 16

theorem Sized.endAgent (h : Sized s.directory) (agentid : Bytes) : Sized (s.endAgent agentid).directory where
  clients id hid := h.clients id (Dict.mem_keys_del.1 hid).2
  signals id reply hmem := by
    rcases List.mem_append.1 hmem with hmem | hmem
    · exact h.signals id reply hmem
    · cases List.mem_singleton.1 hmem
  agents := h.agents

theorem Sized.agentFrame (h : Sized s.directory) (hc : agentid.length = 16) (data : Bytes) :
    Sized (s.agentFrame agentid data).directory := by
  unfold Router.agentFrame
  dsimp only
  split
  · split
    · refine ⟨h.clients, fun id reply hmem => ?_, h.agents⟩
      rcases List.mem_append.1 hmem with hmem | hmem
      · exact h.signals id reply hmem
      · cases List.mem_singleton.1 hmem
        exact hc
    · exact h.endAgent agentid
  · exact h

theorem Sized.step (h : Sized s.directory) (hs : s.step e = some (s', o)) : Sized s'.directory := by
  by_cases he : e.Directs
  · cases step_cases hs with
    | @agentConnect agentid pair hlen hnew =>
      have h' : Sized { s with drawn := agentid :: s.drawn, clients := s.clients.set agentid () }.directory := by
        refine ⟨fun id hid => ?_, h.signals, h.agents⟩
        rcases Dict.mem_keys_set.1 hid with rfl | hid
        · exact hlen
        · exact h.clients id hid
      split
      · exact h'
      · exact h'.endAgent agentid
    | agentFrame data hc => exact h.agentFrame (h.clients _ (Dict.contains_iff_mem_keys.1 hc)) data
    | agentLost => exact h.endAgent _
    | opConnect => split <;> exact ⟨h.clients, h.signals, h.agents⟩
    | @signal x rest ht hq =>
      have hmem : ∀ y, y = x ∨ y ∈ rest → y ∈ s.directory.signal_q := fun y hy => by
        rw [directory, hq]
        exact List.mem_cons.2 hy
      rw [directory_signal]
      refine ⟨h.clients, fun id reply hid => h.signals id reply (hmem _ (.inr hid)), fun id hid => ?_⟩
      cases x with
      | AGENTIN agentid data =>
        rcases Dict.mem_keys_set.1 hid with rfl | hid
        · exact h.signals _ data (hmem _ (.inl rfl))
        · exact h.agents id hid
      | AGENTOUT agentid => exact h.agents id (Dict.mem_keys_del.1 hid).2
    | _ => cases he
  · rw [directory_of_step hs he]
    exact h

/-! ### The queues -/

/-- What an operator's frame puts into `out_q`: the command, with its agent. -/
def accepts (s : Router) : Event → Option (Bytes × Bytes)
  | .opFrame _ data =>
    if ¬ (slice data 26 42 = zeroToken ∧ slice data 4 20 = zeroToken) ∧ s.agents.contains (slice data 4 20) then
      some (slice data 4 20, data.drop 20)
    else none
  | _ => none

/-- What an agent's frame puts into `in_q`: the frame, with its agent and its token. -/
def Event.frame? : Event → Option (Bytes × Bytes × Bytes)
  | .agentFrame agentid data => if slice data 6 22 = zeroToken then none else some (agentid, slice data 6 22, data)
  | _ => none

/-- The steps of the tasks that empty the queues. -/
def Event.Takes : Event → Prop
  | .forward | .deliver | .deliverFailed => True
  | _ => False

/-- The queues, and what decides who gets what is in them. -/
structure Queues where
  out_q : List (Bytes × Bytes)
  in_q : List (Bytes × Bytes × Bytes)
  data_lookop : Dict Bytes Bytes
  delivering : Option (Bytes × Bytes × Bytes)

def queues (s : Router) : Queues := ⟨s.out_q, s.in_q, s.data_lookop, s.delivering⟩

theorem OnlyOperators.queues (h : OnlyOperators s s') : s'.queues = s.queues := by
  have h : s' = _ := h
  exact (congrArg Router.queues h).trans rfl

/-- What a step does to the queues. -/
inductive Moves (s : Router) : Event → Queues → List Output → Prop
  | accept {opid data : Bytes} (ha : s.accepts (.opFrame opid data) = some (slice data 4 20, data.drop 20))
    (hc : slice data 4 20 ∈ s.agents.keys) :
    Moves s (.opFrame opid data) { s.queues with
      data_lookop := s.data_lookop.set (slice data 4 20 ++ slice data 26 42) opid
      out_q := s.out_q ++ [(slice data 4 20, data.drop 20)] } []
  | forward {agentid data : Bytes} {rest : List (Bytes × Bytes)} {o : List Output}
      (hq : s.out_q = (agentid, data) :: rest)
    (ho : o = [.send (.agent agentid) data] ∨ o = []) : Moves s .forward { s.queues with out_q := rest } o
  | receive {agentid data : Bytes}
      (hf : Event.frame? (.agentFrame agentid data) = some (agentid, slice data 6 22, data))
    (hc : agentid ∈ s.clients.keys) (ht : slice data 6 22 ≠ zeroToken) :
    Moves s (.agentFrame agentid data) { s.queues with in_q := s.in_q ++ [(agentid, slice data 6 22, data)] } []
  | deliver {agentid token data opid : Bytes} {rest : List (Bytes × Bytes × Bytes)}
    (hq : s.in_q = (agentid, token, data) :: rest) (hl : s.data_lookop.get? (agentid ++ token) = some opid) :
    Moves s .deliver { s.queues with in_q := rest, delivering := some (agentid ++ token, opid, data) }
      [.send (.operator opid) data]
  | drop {agentid token data : Bytes} {rest : List (Bytes × Bytes × Bytes)}
    (hq : s.in_q = (agentid, token, data) :: rest) (hl : s.data_lookop.get? (agentid ++ token) = none) :
    Moves s .deliver { s.queues with in_q := rest } [.notFound agentid token]
  | delivered {o : List Output} : Moves s .delivered { s.queues with delivering := none } o
  | deliverFailed {tid opid data : Bytes} (hd : s.delivering = some (tid, opid, data)) :
    Moves s .deliverFailed { s.queues with delivering := none, data_lookop := s.data_lookop.del tid } []
  | other {e : Event} {o : List Output} (ha : s.accepts e = none) (hf : e.frame? = none) (ht : ¬ e.Takes) :
    Moves s e s.queues o

theorem moves_opFrame (s : Router) (opid data : Bytes) :
    Moves s (.opFrame opid data) (s.opFrame opid data).1.queues (s.opFrame opid data).2 := by
  have hother : ∀ {q : Queues} {o : List Output}, q = s.queues → s.accepts (.opFrame opid data) = none →
      Moves s (.opFrame opid data) q o := by
    rintro q o rfl ha
    exact .other ha rfl id
  unfold opFrame
  dsimp only
  split
  · rename_i hz
    have ha : s.accepts (.opFrame opid data) = none := by simp [accepts, hz]
    split
    · split
      · exact hother (onlyOperators_listNext ..).queues ha
      · exact hother rfl ha
    · exact hother rfl ha
  · rename_i hz
    split
    · rename_i hc
      exact .accept (by rw [accepts, if_pos ⟨hz, hc⟩]) (Dict.contains_iff_mem_keys.1 hc)
    · rename_i hc
      exact hother (onlyOperators_sendOp ..).queues (by rw [accepts, if_neg fun h => hc h.2])

theorem moves_of_step (h : s.step e = some (s', o)) : Moves s e s'.queues o := by
  cases step_cases h with
  | opFrame data => exact moves_opFrame s _ data
  | agentFrame data hc =>
    unfold agentFrame
    dsimp only
    split
    · rename_i hz
      have hf : ∀ agentid, Event.frame? (.agentFrame agentid data) = none := fun agentid => if_pos hz
      split <;> exact .other rfl (hf _) id
    · rename_i hz
      exact .receive (if_neg hz) (Dict.contains_iff_mem_keys.1 hc) hz
  | @forward agentid data rest hf hq =>
    unfold forward
    split
    · exact .forward hq (.inl rfl)
    · exact .forward hq (.inr rfl)
  | @deliver agentid token data rest hd hq =>
    unfold deliver
    dsimp only
    split
    · exact .deliver hq ‹_›
    · exact .drop hq ‹_›
  | delivered => exact .delivered
  | deliverFailed hd => exact .deliverFailed hd
  | agentConnect | opConnect => split <;> exact .other rfl rfl id
  | @opListed opid token data it =>
    rw [(onlyOperators_listNext s opid token it).queues]
    exact .other rfl rfl id
  | @signal x rest ht hq =>
    have hqueues : ({ s with signal_q := rest }.signal x).1.queues = s.queues := by
      cases x with
      | AGENTIN agentid data =>
        simp only [signal]
        split
        · exact (onlyOperators_announceNext ..).queues
        · rfl
      | AGENTOUT agentid => rfl
    rw [hqueues]
    exact .other rfl rfl id
  | @signalSent agentnotify it opid data =>
    rw [(onlyOperators_announceNext s agentnotify it).queues]
    exact .other rfl rfl id
  | @signalSendFailed agentnotify it opid data =>
    rw [(onlyOperators_announceNext { s with operators := s.operators.del opid } agentnotify it).queues]
    exact .other rfl rfl id
  | _ => exact .other rfl rfl id

/-! ### Traces -/

abbrev Trace := List (Router × Event × List Output)

variable {tr : Trace} {q : Queues} {owner : Bytes → Bytes → Bytes}

def accepted (tr : Trace) : List (Bytes × Bytes) := tr.filterMap fun x => x.1.accepts x.2.1

def arrived (tr : Trace) : List (Bytes × Bytes × Bytes) := tr.filterMap fun x => x.2.1.frame?

/-- The outputs of the steps `e`. -/
def turns (e : Event) (tr : Trace) : List (List Output) := tr.filterMap fun x => if x.2.1 = e then some x.2.2 else none

theorem accepted_snoc : accepted (tr ++ [(s, e, o)]) = accepted tr ++ (s.accepts e).toList := by
  rw [accepted, List.filterMap_append]
  cases h : s.accepts e <;> simp [accepted, h]

theorem arrived_snoc : arrived (tr ++ [(s, e, o)]) = arrived tr ++ e.frame?.toList := by
  rw [arrived, List.filterMap_append]
  cases h : e.frame? <;> simp [arrived, h]

theorem turns_snoc (e' : Event) : turns e' (tr ++ [(s, e, o)]) = turns e' tr ++ if e = e' then [o] else [] := by
  rw [turns, List.filterMap_append]
  by_cases h : e = e' <;> simp [turns, h]

/-- What becomes of a command: it is sent to its agent, or dropped when the agent is gone. -/
def ForwardOf (x : Bytes × Bytes) (o : List Output) : Prop := o = [.send (.agent x.1) x.2] ∨ o = []

/-- What becomes of a frame: it is sent to the operator that uses the agent and the token, or dropped. -/
def DeliveryOf (owner : Bytes → Bytes → Bytes) (x : Bytes × Bytes × Bytes) (o : List Output) : Prop :=
  o = [.send (.operator (owner x.1 x.2.1)) x.2.2] ∨ o = [.notFound x.1 x.2.1]

/-- An operator's frame for the agent and the token has been accepted. -/
def UsedIn (tr : Trace) (agentid token : Bytes) : Prop :=
  ∃ s opid data o, (s, .opFrame opid data, o) ∈ tr ∧ slice data 4 20 = agentid ∧ slice data 26 42 = token ∧
    (s.accepts (.opFrame opid data)).isSome = true

/-- The send of an agent's frame to the operator raises. -/
def DeliveryFails (opid : Bytes) (x : Router × Event × List Output) : Prop :=
  x.2.1 = .deliverFailed ∧ ∃ tid data, x.1.delivering = some (tid, opid, data)

/-- Each agent and token is used by one operator. -/
def UsedBy (owner : Bytes → Bytes → Bytes) : Event → Prop
  | .opFrame opid data => slice data 26 42 ≠ zeroToken → owner (slice data 4 20) (slice data 26 42) = opid
  | _ => True

/-- What `data_lookop` says is right, and says what it has been told. -/
structure Registered (owner : Bytes → Bytes → Bytes) (tr : Trace) (q : Queues) : Prop where
  ids : ∀ x ∈ q.in_q, x.1.length = 16 ∧ x.2.1 ≠ zeroToken
  data_lookop : ∀ agentid token opid, agentid.length = 16 → token ≠ zeroToken →
    q.data_lookop.get? (agentid ++ token) = some opid → opid = owner agentid token
  delivering : ∀ tid opid data, q.delivering = some (tid, opid, data) →
    ∃ agentid token, agentid.length = 16 ∧ tid = agentid ++ token ∧ opid = owner agentid token
  known : ∀ agentid token, token ≠ zeroToken → UsedIn tr agentid token →
    (∀ x ∈ tr, ¬ DeliveryFails (owner agentid token) x) →
      agentid.length = 16 ∧ q.data_lookop.get? (agentid ++ token) = some (owner agentid token)

theorem usedIn_snoc (ha : s.accepts e = none) : UsedIn (tr ++ [(s, e, o)]) agentid token ↔ UsedIn tr agentid token := by
  constructor
  · rintro ⟨s₁, opid, data, o₁, hmem, h₁, h₂, h₃⟩
    rcases List.mem_append.1 hmem with hmem | hmem
    · exact ⟨s₁, opid, data, o₁, hmem, h₁, h₂, h₃⟩
    · cases List.mem_singleton.1 hmem
      rw [ha] at h₃
      cases h₃
  · rintro ⟨s₁, opid, data, o₁, hmem, h⟩
    exact ⟨s₁, opid, data, o₁, List.mem_append_left _ hmem, h⟩

theorem Registered.of_eq {q' : Queues} (hp : Registered owner tr q) (ha : s.accepts e = none)
    (hids : ∀ x ∈ q'.in_q, x.1.length = 16 ∧ x.2.1 ≠ zeroToken) (hl : q'.data_lookop = q.data_lookop)
    (hd : ∀ tid opid data, q'.delivering = some (tid, opid, data) →
      ∃ agentid token, agentid.length = 16 ∧ tid = agentid ++ token ∧ opid = owner agentid token) :
    Registered owner (tr ++ [(s, e, o)]) q' where
  ids := hids
  data_lookop := by rw [hl]; exact hp.data_lookop
  delivering := hd
  known agentid token ht hu hf := by
    rw [hl]
    exact hp.known agentid token ht ((usedIn_snoc ha).1 hu) fun x hx => hf x (List.mem_append_left _ hx)

theorem Registered.step (hp : Registered owner tr s.queues) (hz : Sized s.directory) (ho : UsedBy owner e)
    (hm : Moves s e q o) : Registered owner (tr ++ [(s, e, o)]) q := by
  cases hm with
  | @accept opid data ha hc =>
    have hlen := hz.agents _ hc
    refine ⟨hp.ids, fun agentid token opid' hid ht hl => ?_, hp.delivering, fun agentid token ht hu hf => ?_⟩
    · rw [Dict.get?_set] at hl
      split at hl
      · cases hl
        obtain ⟨rfl, rfl⟩ := List.append_inj ‹_› (hid.trans hlen.symm)
        exact (ho ht).symm
      · exact hp.data_lookop agentid token opid' hid ht hl
    · rw [Dict.get?_set]
      obtain ⟨s₁, opid₁, data₁, o₁, hmem, rfl, rfl, hacc⟩ := hu
      rcases List.mem_append.1 hmem with hmem | hmem
      · obtain ⟨hid, hl⟩ := hp.known _ _ ht ⟨s₁, opid₁, data₁, o₁, hmem, rfl, rfl, hacc⟩ fun x hx =>
          hf x (List.mem_append_left _ hx)
        refine ⟨hid, ?_⟩
        split
        · obtain ⟨h₁, h₂⟩ := List.append_inj ‹_› (hid.trans hlen.symm)
          rw [h₁, h₂]
          exact congrArg some (ho (h₂ ▸ ht)).symm
        · exact hl
      · cases List.mem_singleton.1 hmem
        exact ⟨hlen, by rw [if_pos rfl, ho ht]⟩
  | forward => exact hp.of_eq rfl hp.ids rfl hp.delivering
  | receive hf hc ht =>
    refine hp.of_eq rfl (fun x hx => ?_) rfl hp.delivering
    rcases List.mem_append.1 hx with hx | hx
    · exact hp.ids x hx
    · rw [List.mem_singleton.1 hx]
      exact ⟨hz.clients _ hc, ht⟩
  | @deliver agentid token data opid rest hq hl =>
    have hids : ∀ x ∈ (agentid, token, data) :: rest, x.1.length = 16 ∧ x.2.1 ≠ zeroToken := hq ▸ hp.ids
    refine hp.of_eq rfl (fun x hx => hids x (List.mem_cons_of_mem _ hx)) rfl ?_
    rintro _ _ _ ⟨⟩
    obtain ⟨hid, ht⟩ := hids _ List.mem_cons_self
    exact ⟨agentid, token, hid, rfl, hp.data_lookop agentid token opid hid ht hl⟩
  | drop hq hl =>
    refine hp.of_eq rfl (fun x hx => hp.ids x ?_) rfl hp.delivering
    exact (congrArg (x ∈ ·) hq).mpr (List.mem_cons_of_mem _ hx)
  | delivered => exact hp.of_eq rfl hp.ids rfl (by rintro _ _ _ ⟨⟩)
  | @deliverFailed tid opid data hd =>
    refine ⟨hp.ids, fun agentid token opid' hid ht hl => ?_, by rintro _ _ _ ⟨⟩, fun agentid token ht hu hf => ?_⟩
    · exact hp.data_lookop agentid token opid' hid ht (Dict.get?_of_get?_del hl)
    · obtain ⟨hid, hl⟩ :=
        hp.known agentid token ht ((usedIn_snoc rfl).1 hu) fun x hx => hf x (List.mem_append_left _ hx)
      refine ⟨hid, ?_⟩
      -- the entry that is deleted is that of another agent or token, for the send was to another operator
      have hne : agentid ++ token ≠ tid := by
        rintro rfl
        obtain ⟨agentid', token', hid', heq, rfl⟩ := hp.delivering _ _ _ hd
        obtain ⟨rfl, rfl⟩ := List.append_inj heq (hid.trans hid'.symm)
        exact hf _ (List.mem_append_right _ List.mem_cons_self) ⟨rfl, _, _, hd⟩
      rw [Dict.get?_del_ne _ hne]
      exact hl
  | other ha hf ht => exact hp.of_eq ha hp.ids rfl hp.delivering

theorem commands_step (hp : InTurn ForwardOf (accepted tr) s.out_q (turns .forward tr)) (hm : Moves s e q o) :
    InTurn ForwardOf (accepted (tr ++ [(s, e, o)])) q.out_q (turns .forward (tr ++ [(s, e, o)])) := by
  rw [accepted_snoc, turns_snoc]
  have hstay : s.accepts e = none → e ≠ .forward → InTurn ForwardOf (accepted tr ++ (s.accepts e).toList) s.out_q
      (turns .forward tr ++ if e = .forward then [o] else []) := by
    intro ha he
    rw [ha, if_neg he, Option.toList_none, List.append_nil, List.append_nil]
    exact hp
  cases hm with
  | accept ha hc =>
    rw [ha, if_neg (by rintro ⟨⟩), List.append_nil]
    exact hp.put _
  | @forward agentid data rest o hq ho =>
    rw [if_pos rfl]
    have hp : InTurn ForwardOf (accepted tr ++ []) ((agentid, data) :: rest) (turns .forward tr) := by
      rw [List.append_nil, ← hq]
      exact hp
    exact hp.take ho
  | other ha hf ht =>
    refine hstay ha ?_
    rintro rfl
    exact ht trivial
  | _ => exact hstay rfl (by rintro ⟨⟩)

theorem frames_step (hp : InTurn (DeliveryOf owner) (arrived tr) s.in_q (turns .deliver tr))
    (hr : Registered owner tr s.queues) (hm : Moves s e q o) :
    InTurn (DeliveryOf owner) (arrived (tr ++ [(s, e, o)])) q.in_q (turns .deliver (tr ++ [(s, e, o)])) := by
  rw [arrived_snoc, turns_snoc]
  have hstay : e.frame? = none → e ≠ .deliver → InTurn (DeliveryOf owner) (arrived tr ++ e.frame?.toList) s.in_q
      (turns .deliver tr ++ if e = .deliver then [o] else []) := by
    intro hf he
    rw [hf, if_neg he, Option.toList_none, List.append_nil, List.append_nil]
    exact hp
  have htake : ∀ {x : Bytes × Bytes × Bytes} {rest : List (Bytes × Bytes × Bytes)}, s.in_q = x :: rest →
      DeliveryOf owner x o →
      InTurn (DeliveryOf owner) (arrived tr ++ []) rest (turns .deliver tr ++ [o]) := by
    intro x rest hq ho
    rw [List.append_nil]
    exact (hq ▸ hp).take ho
  cases hm with
  | receive hf hc ht =>
    rw [hf, if_neg (by rintro ⟨⟩), List.append_nil]
    exact hp.put _
  | @deliver agentid token data opid rest hq hl =>
    rw [if_pos rfl]
    refine htake hq (.inl ?_)
    obtain ⟨hid, ht⟩ := hr.ids (agentid, token, data) (show _ ∈ s.in_q from hq ▸ List.mem_cons_self)
    rw [hr.data_lookop agentid token opid hid ht hl]
  | drop hq hl =>
    rw [if_pos rfl]
    exact htake hq (.inr rfl)
  | other ha hf ht =>
    refine hstay hf ?_
    rintro rfl
    exact ht trivial
  | _ => exact hstay rfl (by rintro ⟨⟩)

/-- Whose sends these are. -/
theorem sends_of_step (hown : e ≠ .forward → e ≠ .deliver → ∀ x ∈ o, x.IsOwn) (hm : Moves s e q o) :
    (∀ agentid data, .send (.agent agentid) data ∈ o → e = .forward) ∧
      (e ≠ .deliver → ∀ opid data, .send (.operator opid) data ∈ o →
        ∃ c : CMD, c.toBytes = .ok data ∧ c.type ∈ [CMDType.OK, .ERR, .AGENTINFO]) := by
  by_cases h₁ : e = .forward
  · subst h₁
    refine ⟨fun _ _ _ => rfl, fun _ opid data hmem => ?_⟩
    cases hm with
    | forward hq ho => rcases ho with rfl | rfl <;> simp at hmem
    | other ha hf ht => exact absurd trivial ht
  · by_cases h₂ : e = .deliver
    · subst h₂
      refine ⟨fun agentid data hmem => ?_, fun h => absurd rfl h⟩
      cases hm with
      | deliver | drop => simp at hmem
      | other ha hf ht => exact absurd trivial ht
    · exact ⟨fun agentid data hmem => (hown h₁ h₂ _ hmem).elim, fun _ opid data hmem => hown h₁ h₂ _ hmem⟩

/-- What holds throughout a run. -/
structure DeliveryInv (owner : Bytes → Bytes → Bytes) (tr : Trace) (s : Router) : Prop where
  sized : Sized s.directory
  announces : Announces s.signalTask
  registered : Registered owner tr s.queues
  commands : InTurn ForwardOf (accepted tr) s.out_q (turns .forward tr)
  frames : InTurn (DeliveryOf owner) (arrived tr) s.in_q (turns .deliver tr)
  sends : ∀ x ∈ tr, (∀ agentid data, .send (.agent agentid) data ∈ x.2.2 → x.2.1 = .forward) ∧
    (x.2.1 ≠ .deliver → ∀ opid data, .send (.operator opid) data ∈ x.2.2 →
      ∃ c : CMD, c.toBytes = .ok data ∧ c.type ∈ [CMDType.OK, .ERR, .AGENTINFO])

theorem deliveryInv_of_run (h : Run (traced step) {} es s tr) (ho : ∀ e ∈ es, UsedBy owner e) :
    DeliveryInv owner tr s := by
  refine h.invariant_of (P := fun s tr => DeliveryInv owner tr s) (A := UsedBy owner) ?_ ho ?_
  · intro s s' e o tr ho hp hs
    obtain ⟨o, hstep, rfl⟩ := Run.of_traced hs
    have hm := moves_of_step hstep
    obtain ⟨hn, hown⟩ := own_of_step hstep hp.announces
    refine ⟨hp.sized.step hstep, hn, hp.registered.step hp.sized ho hm, commands_step hp.commands hm,
      frames_step hp.frames hp.registered hm, fun x hx => ?_⟩
    rcases List.mem_append.1 hx with hx | hx
    · exact hp.sends x hx
    · rw [List.mem_singleton.1 hx]
      exact sends_of_step hown hm
  · refine ⟨⟨?_, ?_, ?_⟩, announces_idle, ⟨?_, ?_, ?_, ?_⟩, .nil, .nil, ?_⟩
    · exact fun id hid => by cases hid
    · exact fun id reply hid => by cases hid
    · exact fun id hid => by cases hid
    · exact fun x hx => by cases hx
    · exact fun agentid token opid _ _ h => by cases h
    · exact fun tid opid data h => by cases h
    · rintro agentid token - ⟨s, opid, data, o, hmem, -⟩
      cases hmem
    · exact fun x hx => by cases hx

/-! ### The two directions -/

/-- Each command that is accepted has one turn, in order, and goes to its agent or nowhere; and nothing else is sent
to an agent. -/
structure Forwards (tr : Trace) (s : Router) : Prop where
  inTurn : InTurn ForwardOf (accepted tr) s.out_q (turns .forward tr)
  only : ∀ x ∈ tr, ∀ agentid data, .send (.agent agentid) data ∈ x.2.2 → x.2.1 = .forward

/-- Each frame of an agent that is received has one turn, in order, and goes unchanged to the operator that uses the
agent and the token, or is dropped; everything else that is sent to an operator is of `OPServer`'s making; and a frame
is not dropped if a frame of its operator was accepted before it came and no send to the operator has failed. -/
structure Delivers (owner : Bytes → Bytes → Bytes) (tr : Trace) (s : Router) : Prop where
  inTurn : InTurn (DeliveryOf owner) (arrived tr) s.in_q (turns .deliver tr)
  only : ∀ x ∈ tr, x.2.1 ≠ .deliver → ∀ opid data, .send (.operator opid) data ∈ x.2.2 →
    ∃ c : CMD, c.toBytes = .ok data ∧ c.type ∈ [CMDType.OK, .ERR, .AGENTINFO]
  found : ∀ (tr₁ tr₂ tr₃ : Trace) (s₁ s₂ : Router) (o₁ o₂ : List Output) (agentid data : Bytes),
    tr = (tr₁ ++ (s₁, .agentFrame agentid data, o₁) :: tr₂) ++ (s₂, .deliver, o₂) :: tr₃ →
    slice data 6 22 ≠ zeroToken → UsedIn tr₁ agentid (slice data 6 22) →
    (turns .deliver (tr₁ ++ (s₁, .agentFrame agentid data, o₁) :: tr₂)).length = (arrived tr₁).length →
    (∀ x ∈ tr₁ ++ (s₁, .agentFrame agentid data, o₁) :: tr₂, ¬ DeliveryFails (owner agentid (slice data 6 22)) x) →
    o₂ = [.send (.operator (owner agentid (slice data 6 22))) data]

/-- The offsets of the two servers are those of the two encoders. -/
structure Encodes : Prop where
  accepts : ∀ (c : OPCMD) (data : Bytes), c.agentid.length = 16 → c.cmd.token.length = 16 → c.cmd.token ≠ zeroToken →
    c.toBytes = .ok data → slice data 4 20 = c.agentid ∧ slice data 26 42 = c.cmd.token ∧
      ∃ b, c.cmd.toBytes = .ok b ∧ ∀ (s : Router) opid, s.accepts (.opFrame opid data) =
        if s.agents.contains c.agentid then some (c.agentid, b) else none
  frame? : ∀ (c : CMD) (agentid data : Bytes), c.token.length = 16 → c.token ≠ zeroToken → c.toBytes = .ok data →
    slice data 6 22 = c.token ∧ Event.frame? (.agentFrame agentid data) = some (agentid, c.token, data)

theorem encodes : Encodes where
  accepts c data hid ht hz h := by
    obtain ⟨b, hb, h⟩ := except_bind_eq_ok.1 h
    obtain ⟨cmdlen, hlen, h⟩ := except_bind_eq_ok.1 h
    cases h
    have hcmdlen : cmdlen.length = 4 := by
      obtain ⟨-, rfl⟩ := lenToBytes_eq_ok.1 hlen
      exact length_beBytes ..
    have hdrop : (cmdlen ++ (c.agentid ++ b)).drop 4 = c.agentid ++ b := List.drop_left' hcmdlen
    have hrest : (cmdlen ++ (c.agentid ++ b)).drop 20 = b := by
      rw [← List.append_assoc]
      exact List.drop_left' (by rw [List.length_append, hcmdlen, hid])
    have hagent : slice (cmdlen ++ (c.agentid ++ b)) 4 20 = c.agentid := by
      rw [slice, hdrop]
      exact List.take_left' hid
    have htoken : slice (cmdlen ++ (c.agentid ++ b)) 26 42 = c.cmd.token := by
      rw [slice, ← List.drop_drop (i := 6) (j := 20), hrest]
      exact CMD.token_slice hb ht
    refine ⟨hagent, htoken, b, hb, fun s opid => ?_⟩
    rw [Router.accepts, hagent, htoken, hrest]
    simp only [hz, false_and, not_false_eq_true, true_and]
  frame? c agentid data ht hz h := by
    have htoken : slice data 6 22 = c.token := CMD.token_slice h ht
    refine ⟨htoken, ?_⟩
    rw [Event.frame?, htoken, if_neg hz]

theorem delivers_right (h : Run (traced step) {} es s tr) (ho : ∀ e ∈ es, UsedBy owner e) :
    Forwards tr s ∧ Delivers owner tr s ∧ Encodes := by
  have hp := deliveryInv_of_run h ho
  refine ⟨⟨hp.commands, fun x hx => (hp.sends x hx).1⟩, ⟨hp.frames, fun x hx => (hp.sends x hx).2, ?_⟩, encodes⟩
  rintro tr₁ tr₂ tr₃ s₁ s₂ o₁ o₂ agentid data rfl hz hu hl hf
  obtain ⟨es₁, es₂, s₃, rfl, h₁, hstep, -⟩ := h.split_traced
  have hp₁ := deliveryInv_of_run h₁ fun e he => ho e (List.mem_append_left _ he)
  have harrived : arrived (tr₁ ++ (s₁, .agentFrame agentid data, o₁) :: tr₂) =
      arrived tr₁ ++ (agentid, slice data 6 22, data) :: arrived tr₂ := by
    simp [arrived, Event.frame?, hz]
  -- it is this frame's turn
  have hq := InTurn.next (harrived ▸ hp₁.frames) hl
  have hu₁ : UsedIn (tr₁ ++ (s₁, .agentFrame agentid data, o₁) :: tr₂) agentid (slice data 6 22) := by
    obtain ⟨s₀, opid₀, data₀, o₀, hmem, h⟩ := hu
    exact ⟨s₀, opid₀, data₀, o₀, List.mem_append_left _ hmem, h⟩
  obtain ⟨-, hlookop⟩ := hp₁.registered.known agentid _ hz hu₁ hf
  have hm := moves_of_step hstep
  generalize s₃.queues = q at hm
  cases hm with
  | deliver hq' hl' =>
    cases hq'.symm.trans hq
    cases hl'.symm.trans hlookop
    rfl
  | drop hq' hl' =>
    cases hq'.symm.trans hq
    cases hl'.symm.trans hlookop
  | other ha hf ht => exact absurd trivial ht

/-- The answer of the agent to `frameForA`. -/
def answerOfA : Bytes := [0, 0, 0, 26, 0, 0] ++ List.replicate 16 2 ++ [0, 0, 0, 0]

def thereAndBack : List Event :=
  setUp ++ [.opFrame operatorO frameForA, .forward, .forwarded, .agentFrame agentA answerOfA, .deliver]

theorem delivers_right_thereAndBack : ∃ s tr, Run (traced step) {} thereAndBack s tr ∧
    turns .forward tr = [[.send (.agent agentA) (frameForA.drop 20)]] ∧
      turns .deliver tr = [[.send (.operator operatorO) answerOfA]] ∧
        Forwards tr s ∧ Delivers (fun _ _ => operatorO) tr s ∧ Encodes :=
  have h : Run (traced step) {} thereAndBack _ _ := .of_exec rfl
  ⟨_, _, h, rfl, rfl, delivers_right h (by simp [thereAndBack, setUp, UsedBy])⟩

end Wsnet.Router
