import Wsnet.Router.Delivery
import Wsnet.Router.Descriptions

/-!
# The list of the agents

`OPServer.handle_client` answers a `LISTAGENTS` in a loop over `OPServer.agents` that waits for every send, and the
signal task goes on meanwhile. `Reply` says how far the answer has come; it is kept as long as the table keeps its
keys (`Undisturbed`). An agent that comes or goes during a send makes the loop raise, which ends the handler.
-/

namespace Wsnet.Router
variable {s s' s₁ : Router} {e : Event} {o : List Output} {es es₁ : List Event} {os₁ : List Output} {tr : Trace}
  {opid token data id b : Bytes} {it : Dict.Iter} {done rest ids got : List Bytes} {Made Made' : Bytes → Bytes → Prop}

/-- The `AGENTINFO` that is made of what the table has for the agent. -/
def Entry (s : Router) (token agentid b : Bytes) : Prop :=
  ∃ reply, (s.agents.get? agentid).bind (listAgentsReply token agentid) = some reply ∧ reply.toBytes = .ok b

/-- How far the answer has come, when the operator has got `got`. -/
inductive Reply (opid token : Bytes) (ids : List Bytes) (Made : Bytes → Bytes → Prop) (s : Router)
    (got : List Bytes) : Prop
  /-- the entry of `id` is being sent, and those of `rest` are to come -/
  | listing {it : Dict.Iter} {done rest : List Bytes} {id data : Bytes}
    (hpc : s.handlers.get? opid = some (.listing token it data)) (hat : s.agents.At it (done ++ [id]) rest)
    (hids : ids = done ++ id :: rest) (hgot : List.Forall₂ Made done got) (hdata : Made id data)
  /-- all entries have been sent, and the `OK` is -/
  | listed (hpc : s.handlers.get? opid = some (.listed okFrame)) (hgot : List.Forall₂ Made ids got)
  /-- all has been sent, and the handler receives the next message -/
  | answered {infos : List Bytes} (hpc : s.handlers.get? opid = some .receiving) (hinfos : List.Forall₂ Made ids infos)
    (hgot : got = infos ++ [okFrame])

theorem Reply.mono (h : Reply opid token ids Made s got) (hm : ∀ id b, Made id b → Made' id b) :
    Reply opid token ids Made' s got := by
  cases h with
  | listing hpc hat hids hgot hdata => exact .listing hpc hat hids (hgot.imp hm) (hm _ _ hdata)
  | listed hpc hgot => exact .listed hpc (hgot.imp hm)
  | answered hpc hinfos hgot => exact .answered hpc (hinfos.imp hm) hgot

/-- An entry can be made of what the table has for the agent whose turn it is. -/
def Due (s : Router) (token : Bytes) (it : Dict.Iter) : Prop :=
  ∀ agentid it', s.agents.next it = .yield agentid it' → ∃ b, Entry s token agentid b

/-- The signal enters no new agent and deletes none. -/
def KeepsKeys (agents : Dict Bytes CMD) : Signal → Prop
  | .AGENTIN agentid _ => agentid ∈ agents.keys
  | .AGENTOUT agentid => agentid ∉ agents.keys

/-- The step does not disturb the answer. -/
def Undisturbed (opid token : Bytes) (s : Router) : Event → Prop
  | .opFrame opid' _ => opid' = opid → Due s token s.agents.iter
  | .opSent opid' => opid' = opid → ∀ it data, s.handlers.get? opid = some (.listing token it data) → Due s token it
  | .opSendFailed opid' => opid' ≠ opid
  | .signal => ∀ it data, s.handlers.get? opid = some (.listing token it data) →
    ∀ x rest, s.signal_q = x :: rest → KeepsKeys s.agents x
  | _ => True

/-! ### The loop -/

theorem toBytes_ok : (CMD.OK { token := zeroToken }).toBytes = .ok okFrame := by decide

theorem reply_listNext (hat : s.agents.At it done rest) (hd : Due s token it)
    (hm : ∀ id b, Entry s token id b → Made id b)
    (hgot : List.Forall₂ Made done got) : Reply opid token (done ++ rest) Made (s.listNext opid token it).1 got ∧
      ∃ b, (s.listNext opid token it).2 = [.send (.operator opid) b] := by
  cases rest with
  | nil =>
    have hnext : s.listNext opid token it =
        ({ s with handlers := s.handlers.set opid (.listed okFrame) }, [.send (.operator opid) okFrame]) := by
      rw [listNext, hat.next_nil]
      simp only [sendOp, toBytes_ok]
    rw [hnext]
    exact ⟨.listed (Dict.get?_set_self ..) (by rwa [List.append_nil]), _, rfl⟩
  | cons id rest =>
    obtain ⟨it', hyield, hat'⟩ := hat.next_cons
    obtain ⟨b, reply, hreply, hb⟩ := hd id it' hyield
    have hnext : s.listNext opid token it =
        ({ s with handlers := s.handlers.set opid (.listing token it' b) }, [.send (.operator opid) b]) := by
      rw [listNext, hyield]
      simp only [hreply, sendOp, hb]
    rw [hnext]
    exact ⟨.listing (Dict.get?_set_self ..) hat' rfl hgot (hm id b ⟨reply, hreply, hb⟩), b, rfl⟩

/-- Only the signals change what the table has. -/
theorem agents_of_step (h : s.step e = some (s', o)) (he : e ≠ .signal) : s'.agents = s.agents := by
  by_cases hd : e.Directs
  · cases step_cases h with
    | agentConnect pair | opConnect pair => split <;> rfl
    | agentFrame data =>
      unfold agentFrame
      dsimp only
      split
      · split <;> rfl
      · rfl
    | agentLost => rfl
    | signal => exact absurd rfl he
    | _ => cases hd
  · exact congrArg Directory.agents (directory_of_step h hd)

theorem at_of_step (hat : s.agents.At it done ids) (h : s.step e = some (s', o))
    (hk : e = .signal → ∀ x rest, s.signal_q = x :: rest → KeepsKeys s.agents x) : s'.agents.At it done ids := by
  by_cases he : e = .signal
  · subst he
    cases step_cases h with
    | @signal x rest ht hq =>
      have hkeeps : KeepsKeys s.agents x := hk rfl x rest hq
      cases x with
      | AGENTIN agentid reply =>
        rw [agents_AGENTIN]
        exact hat.set hkeeps reply
      | AGENTOUT agentid =>
        have hat' : (s.agents.del agentid).At it done ids := by
          rw [Dict.del_of_notMem hkeeps]
          exact hat
        exact hat'
  · exact agents_of_step h he ▸ hat

/-- What the operator gets of its own handler. -/
def replies (opid : Bytes) (tr : Trace) : List Bytes :=
  tr.flatMap fun x => if x.2.1 = .opSent opid then x.2.2.filterMap fun
    | .sent _ data => some data
    | _ => none
  else []

/-- The operator's handler takes its next message. -/
def Event.Receives (opid : Bytes) : Event → Prop
  | .opFrame opid' _ | .opLost opid' => opid' = opid
  | _ => False

theorem replies_of_ne (h : e ≠ .opSent opid) : replies opid [(s, e, o)] = [] := by
  simp [replies, h]

theorem replies_append (tr tr' : Trace) : replies opid (tr ++ tr') = replies opid tr ++ replies opid tr' :=
  List.flatMap_append

/-- A handler calls no send before the one that it awaits has returned. -/
theorem outputs_sendOp {c : CMD} {pc : Bytes → OpPc} :
    ∀ x ∈ (s.sendOp opid c pc).2, ∃ b, x = .send (.operator opid) b := by
  unfold sendOp
  split
  · intro x hx
    exact ⟨_, List.mem_singleton.1 hx⟩
  · intro x hx
    cases hx

theorem outputs_listNext : ∀ x ∈ (s.listNext opid token it).2, ∃ b, x = .send (.operator opid) b := by
  unfold listNext
  split
  · intro x hx
    cases hx
  · exact outputs_sendOp
  · split
    · exact outputs_sendOp
    · intro x hx
      cases hx

theorem length_replies_of_step (h : s.step (.opSent opid) = some (s', o)) :
    (replies opid [(s, .opSent opid, o)]).length = 1 := by
  cases step_cases h with
  | opReplied => simp [replies]
  | @opListed _ token data it =>
    have hnil : ∀ {o : List Output}, (∀ x ∈ o, ∃ b, x = .send (.operator opid) b) →
        replies opid [(s, .opSent opid, .sent (.operator opid) data :: o)] = [data] := by
      intro o ho
      simp only [replies, List.flatMap_singleton, if_true]
      refine congrArg (data :: ·) (List.filterMap_eq_nil_iff.2 fun x hx => ?_)
      obtain ⟨b, rfl⟩ := ho x hx
      rfl
    rw [hnil outputs_listNext]
    rfl

/-- The operator gets one thing each time that a send of its handler returns. -/
theorem length_replies (h : Run (traced step) s es s' tr) : (replies opid tr).length = es.count (.opSent opid) := by
  refine h.history_invariant_of (P := fun es _ tr => (replies opid tr).length = es.count (.opSent opid))
    (A := fun _ => True)
    ?_ (fun _ _ => trivial) rfl
  intro es s s' e tr x _ hp hs
  obtain ⟨o, hstep, rfl⟩ := Run.of_traced hs
  rw [replies_append, List.length_append, List.count_append, hp]
  by_cases he : e = .opSent opid
  · subst he
    rw [length_replies_of_step hstep, List.count_singleton_self]
  · have hcount : [e].count (.opSent opid) = 0 := List.count_eq_zero_of_not_mem (by simpa using Ne.symm he)
    rw [replies_of_ne he, hcount]
    rfl

theorem reply_step (hr : Reply opid token ids Made s got) (hd : opid ∈ s.drawn) (hu : Undisturbed opid token s e)
    (hn : ¬ e.Receives opid) (hm : ∀ id b, Entry s token id b → Made id b) (h : s.step e = some (s', o)) :
    Reply opid token ids Made s' (got ++ replies opid [(s, e, o)]) := by
  by_cases he : e.operator = some opid
  · cases step_cases h with
    | opConnect pair hlen hnew =>
      cases he
      exact absurd hd hnew
    | opFrame | opLost =>
      cases he
      exact absurd rfl hn
    | opSendFailed =>
      cases he
      exact absurd rfl hu
    | @opReplied _ data hpc =>
      cases he
      -- the `OK` has been sent
      cases hr with
      | listing hpc' =>
        rw [hpc'] at hpc
        rcases hpc with hpc | hpc <;> cases hpc
      | listed hpc' hgot =>
        rw [hpc'] at hpc
        rcases hpc with hpc | hpc <;> cases hpc
        exact .answered (Dict.get?_set_self ..) hgot (by simp [replies])
      | answered hpc' =>
        rw [hpc'] at hpc
        rcases hpc with hpc | hpc <;> cases hpc
    | @opListed _ token' data it hpc =>
      cases he
      cases hr with
      | listing hpc' hat hids hgot hdata =>
        cases hpc'.symm.trans hpc
        obtain ⟨hreply, b, hsend⟩ :=
          reply_listNext hat (hu rfl it data hpc) hm (List.rel_append hgot (.cons hdata .nil))
        have hreplies : replies opid
            [(s, .opSent opid, .sent (.operator opid) data :: (s.listNext opid token it).2)] = [data] := by
          rw [hsend]
          simp [replies]
        rw [hreplies, hids, List.append_cons]
        exact hreply
      | listed hpc' | answered hpc' => cases hpc'.symm.trans hpc
    | _ => cases he
  · have hpc := handlers_of_step h he
    have hsent : replies opid [(s, e, o)] = [] := replies_of_ne fun heq => he (congrArg Event.operator heq)
    rw [hsent, List.append_nil]
    cases hr with
    | listing hpc' hat hids hgot hdata =>
      refine .listing (hpc.trans hpc') (at_of_step hat h ?_) hids hgot hdata
      rintro rfl
      exact hu _ _ hpc'
    | listed hpc' hgot => exact .listed (hpc.trans hpc') hgot
    | answered hpc' hinfos hgot => exact .answered (hpc.trans hpc') hinfos hgot

/-- The message is a `LISTAGENTS`. -/
def Asks (data token : Bytes) : Prop :=
  slice data 26 42 = zeroToken ∧ slice data 4 20 = zeroToken ∧
    ∃ c, CMD.fromBytes (data.drop 20) = .ok (.LISTAGENTS c) ∧ c.token = token

/-- An entry that was made in one of the steps. -/
def MadeIn (token : Bytes) (tr : Trace) (id b : Bytes) : Prop := ∃ x ∈ tr, Entry x.1 token id b

theorem opFrame_asks (ha : Asks data token) : s.opFrame opid data = s.listNext opid token s.agents.iter := by
  obtain ⟨htoken, hagentid, c, hc, rfl⟩ := ha
  unfold opFrame
  dsimp only
  rw [if_pos ⟨htoken, hagentid⟩, hc]
  rfl

theorem reply_of_run (h₁ : Run step {} es₁ s₁ os₁) (ha : Asks data token)
    (h : Run (traced step) s₁ (.opFrame opid data :: es) s tr) (hn : ∀ e ∈ es, ¬ e.Receives opid)
    (hu : StepsMeet (traced step) (Undisturbed opid token) s₁ (.opFrame opid data :: es)) :
    Reply opid token s₁.agents.keys (MadeIn token tr) s (replies opid tr) := by
  cases h with
  | @cons _ s₂ _ _ _ _ tr' hs hrun =>
    obtain ⟨o, hstep, rfl⟩ := Run.of_traced hs
    have hdrawn : opid ∈ s₂.drawn := by
      cases step_cases hstep with
      | opFrame data hpc => exact (clients_of_step hstep).1 (handlers_drawn_of_run h₁ hpc)
    have hfirst : Reply opid token s₁.agents.keys (MadeIn token [(s₁, .opFrame opid data, o)]) s₂ [] := by
      cases step_cases hstep
      rw [opFrame_asks ha]
      exact (reply_listNext (.iter _) (hu.head rfl) (fun id b hb => ⟨_, List.mem_cons_self, hb⟩) .nil).1
    have hmeet : StepsMeet (traced step) (fun s e => Undisturbed opid token s e ∧ ¬ e.Receives opid) s₂ es :=
      fun es₁ e es₂ s os he hrun =>
        ⟨hu.tail hs es₁ e es₂ s os he hrun, hn e (he ▸ List.mem_append_right _ List.mem_cons_self)⟩
    have hinv := hrun.invariant_where (P := fun s tr => opid ∈ s.drawn ∧ Reply opid token s₁.agents.keys
      (MadeIn token ((s₁, .opFrame opid data, o) :: tr)) s (replies opid ((s₁, .opFrame opid data, o) :: tr)))
      hmeet ?_ ?_
    · exact hinv.2
    · rintro s s' e x tr ⟨hu, hn⟩ ⟨hd, hr⟩ hs
      obtain ⟨o', hstep, rfl⟩ := Run.of_traced hs
      refine ⟨(clients_of_step hstep).1 hd, ?_⟩
      rw [← List.cons_append, replies_append]
      refine reply_step (hr.mono ?_) hd hu hn ?_ hstep
      · rintro id b ⟨x, hx, hb⟩
        exact ⟨x, List.mem_append_left _ hx, hb⟩
      · intro id b hb
        exact ⟨_, List.mem_append_right _ List.mem_cons_self, hb⟩
    · rw [replies_of_ne (by rintro ⟨⟩)]
      exact ⟨hdrawn, hfirst⟩

/-- In every run in which nothing disturbs the answer, the operator gets one entry for each agent that there was when
it asked, and then an `OK`, and its handler goes on: it does so when all the sends have returned. -/
theorem listAgents_answered (h₁ : Run step {} es₁ s₁ os₁) (ha : Asks data token)
    (h : Run (traced step) s₁ (.opFrame opid data :: es) s tr) (hn : ∀ e ∈ es, ¬ e.Receives opid)
    (hu : StepsMeet (traced step) (Undisturbed opid token) s₁ (.opFrame opid data :: es)) :
    Reply opid token s₁.agents.keys (MadeIn token tr) s (replies opid tr) ∧
      (s₁.agents.keys.length < es.count (.opSent opid) → s.handlers.get? opid = some .receiving) := by
  have hr := reply_of_run h₁ ha h hn hu
  refine ⟨hr, fun hlt => ?_⟩
  have hlen : (replies opid tr).length = es.count (.opSent opid) := by
    rw [length_replies h, List.count_cons_of_ne (by rintro ⟨⟩)]
  rw [← hlen] at hlt
  cases hr with
  | listing hpc hat hids hgot hdata =>
    rw [hids, List.length_append, hgot.length_eq] at hlt
    omega
  | listed hpc hgot =>
    rw [hgot.length_eq] at hlt
    omega
  | answered hpc => exact hpc

/-- A `LISTAGENTS`. -/
def listFrame : Bytes := [0, 0, 0, 42] ++ zeroToken ++ [0, 0, 0, 22, 0, 100] ++ zeroToken

/-- An agent and an operator. -/
def oneAgent : List Event :=
  [.agentConnect agentA true, .agentFrame agentA infoFrame, .signal, .opConnect operatorO true]

theorem asks_listFrame : Asks listFrame zeroToken := ⟨rfl, rfl, _, rfl, rfl⟩

/-- What operator `9, 9, …` gets for agent `7, 7, …`. -/
def entryA : Bytes :=
  [0, 0, 0, 71, 0, 101] ++ zeroToken ++ [0, 0, 0, 16] ++ agentA ++ [0, 0, 0, 1, 49] ++ List.replicate 24 0

theorem entry_entryA (h : s.agents.get? agentA = some (.GETINFOREPLY infoA)) : Entry s zeroToken agentA entryA := by
  refine ⟨.AGENTINFO ⟨zeroToken, agentA, 1, "", "", "", "", "", ""⟩, ?_, by decide⟩
  rw [h]
  rfl

def answering (n : Nat) : Router :=
  stateAfter (stateAfter {} oneAgent) (.opFrame operatorO listFrame :: List.replicate n (.opSent operatorO))

set_option maxRecDepth 4000 in
/-- Nothing else happens. -/
theorem listAgents_answered_oneAgent : ∃ s tr,
    Run (traced step) (stateAfter {} oneAgent)
      (.opFrame operatorO listFrame :: List.replicate 2 (.opSent operatorO)) s tr ∧
      Reply operatorO zeroToken [agentA] (MadeIn zeroToken tr) s (replies operatorO tr) ∧
        s.handlers.get? operatorO = some .receiving := by
  have h₁ : Run step {} oneAgent (stateAfter {} oneAgent) [] := .of_exec rfl
  have h : Run (traced step) (stateAfter {} oneAgent)
      (.opFrame operatorO listFrame :: List.replicate 2 (.opSent operatorO)) _ _ :=
    .of_exec rfl
  have hn : ∀ e ∈ List.replicate 2 (.opSent operatorO), ¬ Event.Receives operatorO e := by
    intro e he
    rw [List.eq_of_mem_replicate he]
    exact id
  have hframe : Undisturbed operatorO zeroToken (stateAfter {} oneAgent) (.opFrame operatorO listFrame) := by
    rintro - agentid it' hnext
    have hA : (stateAfter {} oneAgent).agents.next (stateAfter {} oneAgent).agents.iter = .yield agentA ⟨1, 1, 0⟩ := rfl
    cases hA.symm.trans hnext
    exact ⟨entryA, entry_entryA rfl⟩
  have hlisting : Undisturbed operatorO zeroToken (answering 0) (.opSent operatorO) := by
    rintro - it data hpc agentid it' hnext
    have hpc' : (answering 0).handlers.get? operatorO = some (.listing zeroToken ⟨1, 1, 0⟩ entryA) := rfl
    cases hpc'.symm.trans hpc
    have hstop : (answering 0).agents.next ⟨1, 1, 0⟩ = .stop := rfl
    cases hstop.symm.trans hnext
  have hlisted : Undisturbed operatorO zeroToken (answering 1) (.opSent operatorO) := by
    rintro - it data hpc
    have hpc' : (answering 1).handlers.get? operatorO = some (.listed okFrame) := rfl
    cases hpc'.symm.trans hpc
  have hu : StepsMeet (traced step) (Undisturbed operatorO zeroToken) (stateAfter {} oneAgent)
      (.opFrame operatorO listFrame :: List.replicate 2 (.opSent operatorO)) :=
    .cons hframe rfl (.cons hlisting rfl (.cons hlisted rfl .nil))
  obtain ⟨hr, hdone⟩ := listAgents_answered h₁ asks_listFrame h hn hu
  exact ⟨_, _, h, hr, hdone (by decide)⟩

set_option maxRecDepth 4000 in
/-- An agent joins while the entry of another one is being sent. -/
theorem not_listAgents_answered :
    ¬ ∀ (es₁ es : List Event) (s₁ s : Router) (os₁ : List Output) (tr : Trace) (opid data token : Bytes),
    Run step {} es₁ s₁ os₁ → Asks data token → Run (traced step) s₁ (.opFrame opid data :: es) s tr →
      (∀ e ∈ es, ¬ e.Receives opid) → (∀ e ∈ es, e ≠ .opSendFailed opid) →
        Reply opid token s₁.agents.keys (MadeIn token tr) s (replies opid tr) := by
  intro h
  have hr := h oneAgent [.agentConnect agentB true, .agentFrame agentB infoFrame, .signal, .signalSent,
    .opSent operatorO]
    (stateAfter {} oneAgent) _ [] _ operatorO listFrame zeroToken (.of_exec rfl) asks_listFrame (.of_exec rfl)
    (by simp [Event.Receives]) (by simp)
  cases hr with
  | listing hpc => cases hpc
  | listed hpc => cases hpc
  | answered hpc => cases hpc

end Wsnet.Router
