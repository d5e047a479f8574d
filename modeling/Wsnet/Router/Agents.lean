import Mathlib.Data.Set.Insert
import Wsnet.Lib.Feed
import Wsnet.Router.Router

/-!
# Which agents there are

`OPServer.agents` follows `WSNETRouter.clients` through the signal queue: the agents that are connected and have
announced themselves are those that `OPServer.agents` will have when the pending signals have been handled. What a
handler does behind the entry in the table, and whether it gets to its end, does not matter.
-/

namespace Wsnet.Router
variable {s s' : Router} {e : Event} {o : List Output} {es : List Event} {os : List Output} {agentid : Bytes}

/-- What the two servers know of the agents. -/
structure Directory where
  drawn : List Bytes
  clients : Dict Bytes Unit
  signal_q : List Signal
  agents : Dict Bytes CMD

def directory (s : Router) : Directory := ⟨s.drawn, s.clients, s.signal_q, s.agents⟩

theorem OnlyOperators.directory (h : OnlyOperators s s') : s'.directory = s.directory := by
  have h : s' = _ := h
  exact (congrArg Router.directory h).trans rfl

theorem directory_opFrame (s : Router) (opid data : Bytes) : (s.opFrame opid data).1.directory = s.directory := by
  unfold opFrame
  dsimp only
  split
  · split
    · split
      · exact (onlyOperators_listNext ..).directory
      · rfl
    · rfl
  · split
    · rfl
    · exact (onlyOperators_sendOp ..).directory

theorem directory_forward (s : Router) (agentid data : Bytes) : (s.forward agentid data).1.directory = s.directory := by
  unfold forward
  split <;> rfl

theorem directory_deliver (s : Router) (agentid token data : Bytes) :
    (s.deliver agentid token data).1.directory = s.directory := by
  unfold deliver
  dsimp only
  split <;> rfl

/-- The steps that change it. -/
def Event.Directs : Event → Prop
  | .agentConnect _ _ | .agentFrame _ _ | .agentLost _ | .opConnect _ _ | .signal => True
  | _ => False

theorem directory_of_step (h : s.step e = some (s', o)) (he : ¬ e.Directs) : s'.directory = s.directory := by
  cases step_cases h with
  | agentConnect | agentFrame | agentLost | opConnect | signal => exact absurd trivial he
  | forward => exact directory_forward ..
  | opFrame data => exact directory_opFrame ..
  | opListed => exact (onlyOperators_listNext ..).directory
  | deliver => exact directory_deliver ..
  | signalSent | signalSendFailed => exact (onlyOperators_announceNext ..).directory
  | _ => rfl

/-- What the signal queue does to the set of the agents that are known. -/
def applySignal (known : Set Bytes) : Signal → Set Bytes
  | .AGENTIN agentid _ => insert agentid known
  | .AGENTOUT agentid => known \ {agentid}

/-- A signal enters or deletes its agent, however its handling ends. -/
theorem directory_signal (s : Router) (x : Signal) : (s.signal x).1.directory = { s.directory with
    agents := match x with
      | .AGENTIN agentid data => s.agents.set agentid data
      | .AGENTOUT agentid => s.agents.del agentid } := by
  cases x with
  | AGENTIN agentid data =>
    simp only [signal]
    split
    · exact (onlyOperators_announceNext ..).directory
    · rfl
  | AGENTOUT agentid => rfl

/-- The agent has sent a decodable frame with the all-zero token. -/
def Announced (es : List Event) (agentid : Bytes) : Prop :=
  ∃ data reply, .agentFrame agentid data ∈ es ∧ slice data 6 22 = zeroToken ∧ CMD.fromBytes data = .ok reply

/-- The agents that are connected and have announced themselves. -/
def present (es : List Event) (clients : Dict Bytes Unit) : Set Bytes := {id | id ∈ clients.keys ∧ Announced es id}

/-- What holds throughout a run. -/
structure Tracked (es : List Event) (d : Directory) : Prop where
  mirrors : Mirrors applySignal (present es d.clients) {id | id ∈ d.agents.keys} d.signal_q
  connected : ∀ id ∈ d.clients.keys, id ∈ d.drawn
  announced : ∀ id, Announced es id → id ∈ d.drawn

theorem announced_snoc {id : Bytes} : Announced (es ++ [e]) id ↔ Announced es id ∨
    ∃ data reply, e = .agentFrame id data ∧ slice data 6 22 = zeroToken ∧ CMD.fromBytes data = .ok reply := by
  unfold Announced
  simp only [List.mem_append, List.mem_singleton]
  constructor
  · rintro ⟨data, reply, h | rfl, hz, hd⟩
    · exact .inl ⟨data, reply, h, hz, hd⟩
    · exact .inr ⟨data, reply, rfl, hz, hd⟩
  · rintro (⟨data, reply, h, hz, hd⟩ | ⟨data, reply, rfl, hz, hd⟩)
    · exact ⟨data, reply, .inl h, hz, hd⟩
    · exact ⟨data, reply, .inr rfl, hz, hd⟩

/-- Only an announcement, and only of the agent that makes it, announces an agent. -/
theorem announced_snoc_iff {id : Bytes}
    (h : ∀ agentid data, e = .agentFrame agentid data → slice data 6 22 = zeroToken →
    ∃ x, CMD.fromBytes data = .error x) : Announced (es ++ [e]) id ↔ Announced es id := by
  rw [announced_snoc, or_iff_left]
  rintro ⟨data, reply, he, hz, hd⟩
  obtain ⟨x, hx⟩ := h id data he hz
  rw [hd] at hx
  cases hx

theorem Tracked.of_eq {d : Directory} (h : Tracked es d) (ha : ∀ id, Announced (es ++ [e]) id ↔ Announced es id) :
    Tracked (es ++ [e]) d := by
  have hp : present (es ++ [e]) d.clients = present es d.clients := by simp only [present, ha]
  exact ⟨hp ▸ h.mirrors, h.connected, fun id hid => h.announced id ((ha id).1 hid)⟩

/-- An agent that leaves is struck from both, sooner or later. -/
theorem Tracked.endAgent (h : Tracked es s.directory) (agentid : Bytes) :
    Tracked es (s.endAgent agentid).directory where
  mirrors := by
    have hp : present es (s.clients.del agentid) = applySignal (present es s.clients) (.AGENTOUT agentid) := by
      ext id
      simp only [present, applySignal, Set.mem_ofPred_eq, Set.mem_sdiff, Set.mem_singleton_iff, Dict.mem_keys_del]
      tauto
    exact hp ▸ h.mirrors.change _
  connected id hid := h.connected id (Dict.mem_keys_del.1 hid).2
  announced := h.announced

theorem Tracked.connect (h : Tracked es s.directory) (hnew : agentid ∉ s.drawn) :
    Tracked es { s with drawn := agentid :: s.drawn, clients := s.clients.set agentid () }.directory where
  mirrors := by
    have hp : present es (s.clients.set agentid ()) = present es s.clients := by
      ext id
      simp only [present, Set.mem_ofPred_eq, Dict.mem_keys_set]
      -- what has not been drawn yet cannot have announced itself
      have hne : Announced es id → id ≠ agentid := fun ha hid => hnew (hid ▸ h.announced id ha)
      tauto
    exact hp ▸ h.mirrors
  connected id hid := by
    rcases Dict.mem_keys_set.1 hid with rfl | hid
    · exact List.mem_cons_self
    · exact List.mem_cons_of_mem _ (h.connected id hid)
  announced id hid := List.mem_cons_of_mem _ (h.announced id hid)

theorem Tracked.agentFrame (h : Tracked es s.directory) (hc : agentid ∈ s.clients.keys) (data : Bytes) :
    Tracked (es ++ [.agentFrame agentid data]) (s.agentFrame agentid data).directory := by
  unfold Router.agentFrame
  dsimp only
  by_cases hz : slice data 6 22 = zeroToken
  · rw [if_pos hz]
    cases hd : CMD.fromBytes data with
    | error x =>
      refine Tracked.of_eq (h.endAgent agentid) fun id => announced_snoc_iff ?_
      rintro _ _ ⟨rfl, rfl⟩ -
      exact ⟨x, hd⟩
    | ok reply =>
      have ha : ∀ id, Announced (es ++ [.agentFrame agentid data]) id ↔ Announced es id ∨ id = agentid := by
        intro id
        rw [announced_snoc]
        refine or_congr_right ⟨?_, ?_⟩
        · rintro ⟨_, _, ⟨rfl, -⟩, -⟩
          rfl
        · rintro rfl
          exact ⟨data, reply, rfl, hz, hd⟩
      refine ⟨?_, h.connected, ?_⟩
      · have hp : present (es ++ [.agentFrame agentid data]) s.clients =
            applySignal (present es s.clients) (.AGENTIN agentid reply) := by
          ext id
          simp only [present, applySignal, Set.mem_ofPred_eq, Set.mem_insert_iff, ha]
          constructor
          · tauto
          · rintro (rfl | ⟨hid, ha⟩)
            · exact ⟨hc, .inr rfl⟩
            · exact ⟨hid, .inl ha⟩
        exact hp ▸ h.mirrors.change _
      · intro id hid
        rcases (ha id).1 hid with hid | rfl
        · exact h.announced id hid
        · exact h.connected id hc
  · rw [if_neg hz]
    refine Tracked.of_eq h fun id => announced_snoc_iff ?_
    rintro _ _ ⟨rfl, rfl⟩ hz'
    exact absurd hz' hz

/-- The follower takes a signal. -/
theorem Tracked.signal {x : Signal} {rest : List Signal} (h : Tracked es s.directory) (hq : s.signal_q = x :: rest) :
    Tracked es ({ s with signal_q := rest }.signal x).1.directory := by
  have hm : Mirrors applySignal (present es s.clients) {id | id ∈ s.agents.keys} (x :: rest) := hq ▸ h.mirrors
  have hk : applySignal {id | id ∈ s.agents.keys} x = {id | id ∈ (match x with
      | .AGENTIN agentid data => s.agents.set agentid data
      | .AGENTOUT agentid => s.agents.del agentid).keys} := by
    ext id
    cases x with
    | AGENTIN agentid data => simp [applySignal, Dict.mem_keys_set]
    | AGENTOUT agentid => simp [applySignal, Dict.mem_keys_del, and_comm]
  rw [directory_signal]
  exact ⟨hk ▸ hm.take, h.connected, h.announced⟩

theorem tracked_step (h : Tracked es s.directory) (hs : s.step e = some (s', o)) :
    Tracked (es ++ [e]) s'.directory := by
  by_cases he : e.Directs
  · cases step_cases hs with
    | agentConnect pair hlen hnew =>
      refine Tracked.of_eq ?_ fun id => announced_snoc_iff (by rintro _ _ ⟨⟩)
      split
      · exact h.connect hnew
      · exact (h.connect hnew).endAgent _
    | agentFrame data hc => exact h.agentFrame (Dict.contains_iff_mem_keys.1 hc) data
    | agentLost => exact Tracked.of_eq (h.endAgent _) fun id => announced_snoc_iff (by rintro _ _ ⟨⟩)
    | @opConnect opid pair hlen hnew =>
      have h' : Tracked es { s.directory with drawn := opid :: s.drawn } :=
        ⟨h.mirrors, fun id hid => List.mem_cons_of_mem _ (h.connected id hid),
          fun id hid => List.mem_cons_of_mem _ (h.announced id hid)⟩
      have h'' := h'.of_eq fun id => announced_snoc_iff (e := .opConnect opid pair) (by rintro _ _ ⟨⟩)
      split <;> exact h''
    | signal ht hq => exact Tracked.of_eq (h.signal hq) fun id => announced_snoc_iff (by rintro _ _ ⟨⟩)
    | _ => cases he
  · rw [directory_of_step hs he]
    refine h.of_eq fun id => announced_snoc_iff ?_
    rintro _ _ rfl
    exact absurd trivial he

theorem tracked_of_run (h : Run step {} es s os) : Tracked es s.directory := by
  refine h.history_invariant_of (P := fun es s _ => Tracked es s.directory) (A := fun _ => True)
    (fun _ hp hs => tracked_step hp hs) (fun _ _ => trivial) ⟨?_, ?_, ?_⟩
  · ext id
    simp [present, directory]
  · intro id hid
    cases hid
  · rintro id ⟨_, _, h, -⟩
    cases h

/-- What an agent's handler does to the tables of its own server. -/
theorem clients_agentFrame (s : Router) (agentid data : Bytes) : (s.agentFrame agentid data).drawn = s.drawn ∧
    ∀ id ∈ (s.agentFrame agentid data).clients.keys, id ∈ s.clients.keys := by
  unfold Router.agentFrame
  dsimp only
  split
  · split
    · exact ⟨rfl, fun _ h => h⟩
    · exact ⟨rfl, fun _ h => (Dict.mem_keys_del.1 h).2⟩
  · exact ⟨rfl, fun _ h => h⟩

/-- Ids are only added, and only an id that has not been drawn before becomes the id of an agent. -/
theorem clients_of_step (hs : s.step e = some (s', o)) : s.drawn ⊆ s'.drawn ∧
    ∀ id ∈ s'.clients.keys, id ∈ s.clients.keys ∨ id ∉ s.drawn := by
  by_cases he : e.Directs
  · cases step_cases hs with
    | @agentConnect agentid pair hlen hnew =>
      have hkeys : ∀ id ∈ (s.clients.set agentid ()).keys, id ∈ s.clients.keys ∨ id ∉ s.drawn := by
        intro id hid
        rcases Dict.mem_keys_set.1 hid with rfl | hid
        · exact .inr hnew
        · exact .inl hid
      split
      · exact ⟨List.subset_cons_self agentid s.drawn, hkeys⟩
      · exact ⟨List.subset_cons_self agentid s.drawn, fun id hid => hkeys id (Dict.mem_keys_del.1 hid).2⟩
    | @agentFrame agentid data hc =>
      obtain ⟨hd, hc⟩ := clients_agentFrame s agentid data
      exact ⟨hd ▸ List.Subset.refl _, fun id hid => .inl (hc id hid)⟩
    | agentLost => exact ⟨List.Subset.refl _, fun id hid => .inl (Dict.mem_keys_del.1 hid).2⟩
    | @opConnect opid pair hlen hnew => split <;> exact ⟨List.subset_cons_self opid s.drawn, fun id hid => .inl hid⟩
    | @signal x rest ht hq =>
      have hd := directory_signal { s with signal_q := rest } x
      have hdrawn : ({ s with signal_q := rest }.signal x).1.drawn = s.drawn := congrArg Directory.drawn hd
      have hclients : ({ s with signal_q := rest }.signal x).1.clients = s.clients := congrArg Directory.clients hd
      exact ⟨fun id hid => by rwa [hdrawn], fun id hid => .inl (hclients ▸ hid)⟩
    | _ => cases he
  · have hd := directory_of_step hs he
    have hdrawn : s'.drawn = s.drawn := congrArg Directory.drawn hd
    have hclients : s'.clients = s.clients := congrArg Directory.clients hd
    exact ⟨hdrawn ▸ List.Subset.refl _, fun id hid => .inl (hclients ▸ hid)⟩

/-- An id is drawn once: who is gone stays away. -/
theorem gone_of_run (h : Run step s es s' os) (hd : agentid ∈ s.drawn) (hc : agentid ∉ s.clients.keys) :
    agentid ∉ s'.clients.keys := by
  refine (h.state_invariant (P := fun s => agentid ∈ s.drawn ∧ agentid ∉ s.clients.keys) ?_ ⟨hd, hc⟩).2
  rintro s s' e o ⟨hd, hc⟩ hs
  obtain ⟨hsub, hkeys⟩ := clients_of_step hs
  exact ⟨hsub hd, fun hid => (hkeys _ hid).elim hc fun hnew => hnew hd⟩

theorem drawn_of_run {pair : Bool} (h : Run step {} es s os) (he : .agentConnect agentid pair ∈ es) :
    agentid ∈ s.drawn := by
  refine h.history_invariant_of (P := fun es s _ => .agentConnect agentid pair ∈ es → agentid ∈ s.drawn)
    (A := fun _ => True) ?_ (fun _ _ => trivial) (fun h => by cases h) he
  intro es s s' e os o _ hp hs hmem
  rcases List.mem_append.1 hmem with hmem | hmem
  · exact (clients_of_step hs).1 (hp hmem)
  · rw [← List.mem_singleton.1 hmem] at hs
    cases step_cases hs with
    | agentConnect => split <;> exact List.mem_cons_self

/-- The agent has been connected, and is not any more. -/
def Left (es : List Event) (agentid : Bytes) : Prop :=
  (∃ pair, .agentConnect agentid pair ∈ es) ∧ ∀ s os, Run step {} es s os → agentid ∉ s.clients.keys

/-- With no signal pending, `OPServer.agents` are the agents that are connected and have announced themselves, and
who has left does not come back. The handling of the last signal need not even be over. -/
theorem agents_converge (h : Run step {} es s os) (hq : s.signal_q = []) :
    (∀ id, id ∈ s.agents.keys ↔ id ∈ s.clients.keys ∧ Announced es id) ∧
      ∀ es₁ es₂ id, es = es₁ ++ es₂ → Left es₁ id → id ∉ s.agents.keys := by
  have ht := (tracked_of_run h).mirrors
  rw [directory, hq] at ht
  have hiff : ∀ id, id ∈ s.agents.keys ↔ id ∈ s.clients.keys ∧ Announced es id := fun id =>
    Set.ext_iff.1 ht.eq_of_nil id
  refine ⟨hiff, ?_⟩
  rintro es₁ es₂ id rfl ⟨⟨pair, hpair⟩, hleft⟩ hid
  obtain ⟨s₁, os₁, os₂, h₁, h₂, -⟩ := h.split
  exact gone_of_run h₂ (drawn_of_run h₁ hpair) (hleft s₁ os₁ h₁) ((hiff id).1 hid).1

def nopFrame : Bytes := [0, 0, 0, 22, 0, 254] ++ zeroToken
def agentA : Bytes := List.replicate 16 7

def agentB : Bytes := List.replicate 16 8

/-- Two agents announce themselves, and one leaves. -/
def oneLeaves : List Event :=
  [.agentConnect agentA true, .agentFrame agentA nopFrame, .signal, .agentConnect agentB true,
    .agentFrame agentB nopFrame, .agentLost agentA, .signal, .signal]

theorem left_oneLeaves : Left oneLeaves agentA := by
  refine ⟨⟨true, by decide⟩, fun s os h => ?_⟩
  have hexec : (exec step {} oneLeaves).any fun r => agentA ∉ r.1.clients.keys := by decide
  rw [h.exec_eq] at hexec
  simpa using hexec

theorem agents_converge_oneLeft : ∃ s os, Run step {} oneLeaves s os ∧ s.agents.keys = [agentB] ∧
    (∀ id, id ∈ s.agents.keys ↔ id ∈ s.clients.keys ∧ Announced oneLeaves id) ∧ agentA ∉ s.agents.keys := by
  have h : Run step {} oneLeaves _ _ := .of_exec rfl
  have hboth := agents_converge h rfl
  exact ⟨_, _, h, rfl, hboth.1, hboth.2 oneLeaves [] agentA (List.append_nil _).symm left_oneLeaves⟩

end Wsnet.Router
