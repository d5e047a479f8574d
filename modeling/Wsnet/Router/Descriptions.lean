import Wsnet.Router.Agents

/-!
# What an agent is listed with

`OPServer.agents` has for each agent the last frame with the zero token that it has sent, whatever that was: only of
a `GETINFOREPLY` can an entry of the list be made. `Sends` says what the agents may send, and the table and the
pending signals then have nothing else.
-/

namespace Wsnet.Router
variable {s s' : Router} {e : Event} {o : List Output} {es : List Event} {os : List Output} {agentid id data : Bytes}
  {reply : CMD} {c : WSNGetInfoReply} {Allowed : Bytes → CMD → Prop}

/-- The agent announces itself with the frame. -/
def Tells (data : Bytes) (reply : CMD) : Prop := slice data 6 22 = zeroToken ∧ CMD.fromBytes data = .ok reply

/-- What an agent sends of itself is allowed. -/
def Sends (Allowed : Bytes → CMD → Prop) : Event → Prop
  | .agentFrame agentid data => ∀ reply, Tells data reply → Allowed agentid reply
  | _ => True

/-- What is known of the agents, or will be, is allowed. -/
structure Known (Allowed : Bytes → CMD → Prop) (d : Directory) : Prop where
  table : ∀ id reply, d.agents.get? id = some reply → Allowed id reply
  pending : ∀ id reply, .AGENTIN id reply ∈ d.signal_q → Allowed id reply

theorem Known.endAgent (h : Known Allowed s.directory) (agentid : Bytes) :
    Known Allowed (s.endAgent agentid).directory where
  table := h.table
  pending id reply hx := by
    rcases List.mem_append.1 hx with hx | hx
    · exact h.pending id reply hx
    · cases List.mem_singleton.1 hx

theorem Known.agentFrame (h : Known Allowed s.directory) (ha : Sends Allowed (.agentFrame agentid data)) :
    Known Allowed (s.agentFrame agentid data).directory := by
  unfold Router.agentFrame
  dsimp only
  by_cases hz : slice data 6 22 = zeroToken
  · rw [if_pos hz]
    cases hd : CMD.fromBytes data with
    | error x => exact h.endAgent agentid
    | ok reply =>
      refine ⟨h.table, fun id reply' hx => ?_⟩
      rcases List.mem_append.1 hx with hx | hx
      · exact h.pending id reply' hx
      · cases List.mem_singleton.1 hx
        exact ha reply ⟨hz, hd⟩
  · rw [if_neg hz]
    exact h

theorem Known.signal {x : Signal} {rest : List Signal} (h : Known Allowed s.directory) (hq : s.signal_q = x :: rest) :
    Known Allowed ({ s with signal_q := rest }.signal x).1.directory := by
  have hrest : ∀ y ∈ rest, y ∈ s.signal_q := fun y hy => hq ▸ List.mem_cons_of_mem x hy
  rw [directory_signal]
  refine ⟨fun id reply hid => ?_, fun id reply hx => h.pending id reply (hrest _ hx)⟩
  cases x with
  | AGENTIN agentid data =>
    rw [show _ = _ from Dict.get?_set ..] at hid
    split at hid
    · subst_vars
      cases hid
      exact h.pending agentid reply (show _ ∈ s.signal_q from hq ▸ List.mem_cons_self)
    · exact h.table id reply hid
  | AGENTOUT agentid => exact h.table id reply (Dict.get?_of_get?_del hid)

theorem known_step (ha : Sends Allowed e) (h : Known Allowed s.directory) (hs : s.step e = some (s', o)) :
    Known Allowed s'.directory := by
  by_cases he : e.Directs
  · cases step_cases hs with
    | @agentConnect agentid pair =>
      have h' : Known Allowed { s with drawn := agentid :: s.drawn, clients := s.clients.set agentid () }.directory :=
        ⟨h.table, h.pending⟩
      split
      · exact h'
      · exact h'.endAgent agentid
    | agentFrame data => exact h.agentFrame ha
    | agentLost => exact h.endAgent _
    | opConnect pair => split <;> exact ⟨h.table, h.pending⟩
    | signal ht hq => exact h.signal hq
    | _ => cases he
  · rw [directory_of_step hs he]
    exact h

theorem known_of_run (h : Run step {} es s os) (ha : ∀ e ∈ es, Sends Allowed e) : Known Allowed s.directory := by
  refine h.invariant_of (P := fun s _ => Known Allowed s.directory) (fun ha hp hs => known_step ha hp hs) ha ⟨?_, ?_⟩
  · rintro id reply ⟨⟩
  · rintro id reply ⟨⟩

/-! ### Who is listed stays listed -/

/-- The signal that an agent has left is put when it is gone for good. -/
structure Parted (d : Directory) : Prop where
  connected : ∀ id ∈ d.clients.keys, id ∈ d.drawn
  parted : ∀ id, .AGENTOUT id ∈ d.signal_q → id ∈ d.drawn ∧ id ∉ d.clients.keys

theorem Parted.endAgent (h : Parted s.directory) (hc : agentid ∈ s.clients.keys) :
    Parted (s.endAgent agentid).directory where
  connected id hid := h.connected id (Dict.mem_keys_del.1 hid).2
  parted id hx := by
    rcases List.mem_append.1 hx with hx | hx
    · exact ⟨(h.parted id hx).1, fun hid => (h.parted id hx).2 (Dict.mem_keys_del.1 hid).2⟩
    · cases List.mem_singleton.1 hx
      exact ⟨h.connected agentid hc, fun hid => (Dict.mem_keys_del.1 hid).1 rfl⟩

theorem Parted.connect (h : Parted s.directory) (hnew : agentid ∉ s.drawn) :
    Parted { s with drawn := agentid :: s.drawn, clients := s.clients.set agentid () }.directory where
  connected id hid := by
    rcases Dict.mem_keys_set.1 hid with rfl | hid
    · exact List.mem_cons_self
    · exact List.mem_cons_of_mem _ (h.connected id hid)
  parted id hx := by
    obtain ⟨hd, hc⟩ := h.parted id hx
    refine ⟨List.mem_cons_of_mem _ hd, fun hid => ?_⟩
    rcases Dict.mem_keys_set.1 hid with rfl | hid
    · exact hnew hd
    · exact hc hid

theorem Parted.agentFrame (h : Parted s.directory) (hc : agentid ∈ s.clients.keys) (data : Bytes) :
    Parted (s.agentFrame agentid data).directory := by
  unfold Router.agentFrame
  dsimp only
  split
  · split
    · refine ⟨h.connected, fun id hx => ?_⟩
      rcases List.mem_append.1 hx with hx | hx
      · exact h.parted id hx
      · cases List.mem_singleton.1 hx
    · exact h.endAgent hc
  · exact h

theorem parted_step (h : Parted s.directory) (hs : s.step e = some (s', o)) : Parted s'.directory := by
  by_cases he : e.Directs
  · cases step_cases hs with
    | agentConnect pair hlen hnew =>
      split
      · exact h.connect hnew
      · exact (h.connect hnew).endAgent (Dict.mem_keys_set.2 (.inl rfl))
    | agentFrame data hc => exact h.agentFrame (Dict.contains_iff_mem_keys.1 hc) data
    | agentLost hc => exact h.endAgent (Dict.contains_iff_mem_keys.1 hc)
    | @opConnect opid pair =>
      have h' : Parted { s.directory with drawn := opid :: s.drawn } :=
        ⟨fun id hid => List.mem_cons_of_mem _ (h.connected id hid),
          fun id hx => ⟨List.mem_cons_of_mem _ (h.parted id hx).1, (h.parted id hx).2⟩⟩
      split <;> exact h'
    | signal ht hq =>
      rw [directory_signal]
      exact ⟨h.connected, fun id hx => h.parted id (show _ ∈ s.signal_q from hq ▸ List.mem_cons_of_mem _ hx)⟩
    | _ => cases he
  · rw [directory_of_step hs he]
    exact h

theorem parted_of_run (h : Run step {} es s os) : Parted s.directory := by
  refine h.state_invariant (P := fun s => Parted s.directory) parted_step ⟨?_, ?_⟩
  · rintro id ⟨⟩
  · rintro id ⟨⟩

theorem agents_AGENTIN (s : Router) (agentid : Bytes) (data : CMD) :
    (s.signal (.AGENTIN agentid data)).1.agents = s.agents.set agentid data :=
  congrArg Directory.agents (directory_signal s (.AGENTIN agentid data))

/-- Only the signal that an agent has left takes it from the list. -/
theorem listed_step (hs : s.step e = some (s', o)) (hl : id ∈ s.agents.keys) :
    id ∈ s'.agents.keys ∨ .AGENTOUT id ∈ s.signal_q := by
  by_cases he : e.Directs
  · cases step_cases hs with
    | agentConnect pair | opConnect pair => split <;> exact .inl hl
    | @agentFrame agentid data hc =>
      refine .inl ?_
      unfold agentFrame
      dsimp only
      split
      · split <;> exact hl
      · exact hl
    | agentLost => exact .inl hl
    | @signal x rest ht hq =>
      cases x with
      | AGENTIN agentid data =>
        rw [agents_AGENTIN, Dict.mem_keys_set]
        exact .inl (.inr hl)
      | AGENTOUT agentid =>
        by_cases hid : id = agentid
        · exact .inr (hid ▸ hq ▸ List.mem_cons_self)
        · exact .inl (Dict.mem_keys_del.2 ⟨hid, hl⟩)
    | _ => cases he
  · have hagents : s'.agents = s.agents := congrArg Directory.agents (directory_of_step hs he)
    exact .inl (hagents ▸ hl)

theorem listed_of_run {s₁ : Router} {es₁ es₂ : List Event} {os₁ os₂ : List Output} (h₁ : Run step {} es₁ s₁ os₁)
    (h₂ : Run step s₁ es₂ s os₂) (hl : id ∈ s₁.agents.keys) (hd : id ∈ s₁.drawn) (hc : id ∈ s.clients.keys) :
    id ∈ s.agents.keys := by
  have hrun := h₂.state_invariant
    (P := fun s => Parted s.directory ∧ id ∈ s.drawn ∧ (id ∈ s.agents.keys ∨ id ∉ s.clients.keys)) ?_
    ⟨parted_of_run h₁, hd, .inl hl⟩
  · exact hrun.2.2.resolve_right fun hn => hn hc
  · rintro s s' e o ⟨hp, hd, hl⟩ hs
    refine ⟨parted_step hp hs, (clients_of_step hs).1 hd, ?_⟩
    have hgone : id ∉ s.clients.keys → id ∉ s'.clients.keys := fun hn hid =>
      ((clients_of_step hs).2 id hid).elim hn fun hnew => hnew hd
    rcases hl with hl | hl
    · exact (listed_step hs hl).imp_right fun hx => hgone (hp.parted id hx).2
    · exact .inr (hgone hl)

theorem mem_foldl_applySignal {known : Set Bytes} {q : List Signal} (h : id ∈ q.foldl applySignal known) :
    id ∈ known ∨ ∃ reply, .AGENTIN id reply ∈ q := by
  induction q generalizing known with
  | nil => exact .inl h
  | cons x q ih =>
    rcases ih h with h | ⟨reply, h⟩
    · cases x with
      | AGENTIN agentid reply =>
        rcases Set.mem_insert_iff.1 h with rfl | h
        · exact .inr ⟨reply, List.mem_cons_self⟩
        · exact .inl h
      | AGENTOUT agentid => exact .inl h.1
    · exact .inr ⟨reply, List.mem_cons_of_mem _ h⟩

/-! ### The list -/

/-- The agent says of itself nothing but this. -/
def Describes (agentid : Bytes) (c : WSNGetInfoReply) (es : List Event) : Prop :=
  ∀ data reply, .agentFrame agentid data ∈ es → Tells data reply → reply = .GETINFOREPLY c

theorem Describes.known (h : Run step {} es s os) (hd : Describes id c es) :
    Known (fun agentid reply => agentid = id → reply = .GETINFOREPLY c) s.directory := by
  refine known_of_run h fun e he => ?_
  cases e with
  | agentFrame agentid data =>
    rintro reply ht rfl
    exact hd data reply he ht
  | _ => trivial

/-- The agent is listed with what it has said, or the signal is on its way. -/
theorem Describes.listed_or_pending (h : Run step {} es s os) (hd : Describes id c es) (ha : Announced es id)
    (hc : id ∈ s.clients.keys) :
    s.agents.get? id = some (.GETINFOREPLY c) ∨ .AGENTIN id (.GETINFOREPLY c) ∈ s.signal_q := by
  have hk := hd.known h
  have hm : id ∈ s.signal_q.foldl applySignal {id | id ∈ s.agents.keys} := by
    have hm : s.signal_q.foldl applySignal {id | id ∈ s.agents.keys} = present es s.clients :=
      (tracked_of_run h).mirrors
    exact hm ▸ ⟨hc, ha⟩
  rcases mem_foldl_applySignal hm with hid | ⟨reply, hx⟩
  · obtain ⟨reply, hreply⟩ := Dict.mem_keys_iff.1 hid
    exact .inl (hreply.trans (congrArg some (hk.table id reply hreply rfl)))
  · exact .inr (hk.pending id reply hx rfl ▸ hx)

/-- Who is listed has been drawn. -/
theorem drawn_of_listed (h : Run step {} es s os) (hl : id ∈ s.agents.keys) : id ∈ s.drawn := by
  have hk : Known (fun agentid _ => Announced es agentid) s.directory := by
    refine known_of_run h fun e he => ?_
    cases e with
    | agentFrame agentid data =>
      rintro reply ⟨hz, hd⟩
      exact ⟨data, reply, he, hz, hd⟩
    | _ => trivial
  obtain ⟨reply, hreply⟩ := Dict.mem_keys_iff.1 hl
  exact (tracked_of_run h).announced id (hk.table id reply hreply)

/-- What a list can be made of. -/
def IsDescription (_agentid : Bytes) (reply : CMD) : Prop := ∃ c, reply = .GETINFOREPLY c

/-- In every run in which the agents send only descriptions of themselves with the zero token, the table has nothing
else, so that the list can be made; and who always says the same is listed with it from the signal on until it leaves. -/
theorem agents_described (h : Run step {} es s os) (hs : ∀ e ∈ es, Sends IsDescription e) :
    (∀ id reply, s.agents.get? id = some reply → ∃ c, reply = .GETINFOREPLY c) ∧
      (∀ token, ∀ id ∈ s.agents.keys, ∃ entry, (s.agents.get? id).bind (listAgentsReply token id) = some entry) ∧
      ∀ id c, Describes id c es → Announced es id → id ∈ s.clients.keys →
        (s.agents.get? id = some (.GETINFOREPLY c) ∨ .AGENTIN id (.GETINFOREPLY c) ∈ s.signal_q) ∧
          ∀ es₁ es₂ s₁ os₁ os₂, es = es₁ ++ es₂ → Run step {} es₁ s₁ os₁ → Run step s₁ es₂ s os₂ →
            id ∈ s₁.agents.keys → s.agents.get? id = some (.GETINFOREPLY c) := by
  have htable := (known_of_run h hs).table
  refine ⟨htable, ?_, ?_⟩
  · intro token id hid
    obtain ⟨reply, hreply⟩ := Dict.mem_keys_iff.1 hid
    obtain ⟨c, rfl⟩ := htable id reply hreply
    exact ⟨_, by rw [hreply]; rfl⟩
  · intro id c hd ha hc
    refine ⟨hd.listed_or_pending h ha hc, ?_⟩
    rintro es₁ es₂ s₁ os₁ os₂ - h₁ h₂ hl
    obtain ⟨reply, hreply⟩ := Dict.mem_keys_iff.1 (listed_of_run h₁ h₂ hl (drawn_of_listed h₁ hl) hc)
    exact hreply.trans (congrArg some ((hd.known h).table id reply hreply rfl))

/-- A `GETINFOREPLY`, and the `OK` that `WSNETAgent.handle_info` sends behind it. -/
def infoFrame : Bytes := [0, 0, 0, 59, 0, 9] ++ zeroToken ++ [0, 0, 0, 1, 49] ++ List.replicate 32 0
def okFrame : Bytes := [0, 0, 0, 26, 0, 0] ++ zeroToken ++ [0, 0, 0, 0]

def infoA : WSNGetInfoReply := ⟨zeroToken, 1, "", "", "", "", "", "", "", ""⟩

/-- An agent that leaves out the `OK`. -/
theorem agents_described_infoA :
    ∃ s os, Run step {} [.agentConnect agentA true, .agentFrame agentA infoFrame, .signal] s os ∧
    ∀ token, ∃ entry, (s.agents.get? agentA).bind (listAgentsReply token agentA) = some entry := by
  have h : Run step {} [.agentConnect agentA true, .agentFrame agentA infoFrame, .signal] _ _ := .of_exec rfl
  refine ⟨_, _, h, fun token => (agents_described h ?_).2.1 token agentA (Dict.mem_keys_iff.2 ⟨_, rfl⟩)⟩
  intro e he
  simp only [List.mem_cons, List.not_mem_nil, or_false] at he
  rcases he with rfl | rfl | rfl
  · trivial
  · rintro reply ⟨-, hd⟩
    have hinfo : CMD.fromBytes infoFrame = .ok (.GETINFOREPLY infoA) := rfl
    cases hinfo.symm.trans hd
    exact ⟨infoA, rfl⟩
  · trivial

/-- The `OK` takes the place of the description. -/
theorem not_agents_described : ¬ ∀ (es : List Event) (s : Router) (os : List Output), Run step {} es s os →
    ∀ id reply, s.agents.get? id = some reply → ∃ c, reply = .GETINFOREPLY c := by
  intro h
  obtain ⟨c, hc⟩ := h [.agentConnect agentA true, .agentFrame agentA infoFrame, .signal,
    .agentFrame agentA okFrame, .signal]
    _ _ (.of_exec rfl) agentA (.OK { token := zeroToken, msg := some "" }) rfl
  cases hc

end Wsnet.Router
