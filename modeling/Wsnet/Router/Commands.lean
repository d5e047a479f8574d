import Wsnet.Router.Agents

/-!
# What becomes of an operator's command

A command for an agent that `OPServer` knows goes into `out_q`, and for any other the operator gets an `ERR`. What
is in the queue is sent if the agent is still there when `WSNETRouter` takes it, and if the send does not raise;
otherwise it is gone, and nobody is told. `answered_of_run` says that nothing else is lost.
-/

namespace Wsnet.Router
variable {s s' s₁ s₂ : Router} {e : Event} {o o' : List Output} {es : List Event} {os : List Output}
  {agentid opid data agentdata b : Bytes}

/-! ### A command in the queue -/

/-- The command has been sent, is being sent or will be. -/
def Pending (agentid agentdata : Bytes) (s : Router) (os : List Output) : Prop :=
  .sent (.agent agentid) agentdata ∈ os ∨ s.forwarding = some (agentid, agentdata) ∨ (agentid, agentdata) ∈ s.out_q

/-- The step does not lose what it handles. -/
def Keeps (s : Router) : Event → Prop
  | .forward => ∀ agentid agentdata rest, s.out_q = (agentid, agentdata) :: rest → agentid ∈ s.clients.keys
  | .forwardFailed => False
  | .opSendFailed opid => ∀ data, s.handlers.get? opid ≠ some (.refusing data)
  | _ => True

/-- Only `WSNETRouter.__handle_in_queue` takes commands from the queue. -/
def Event.Forwards : Event → Prop
  | .forward | .forwarded | .forwardFailed => True
  | _ => False

theorem OnlyOperators.queue (h : OnlyOperators s s') : s'.forwarding = s.forwarding ∧ s'.out_q = s.out_q := by
  have h : s' = _ := h
  exact ⟨(congrArg Router.forwarding h).trans rfl, (congrArg Router.out_q h).trans rfl⟩

theorem queue_of_eq (h : s'.forwarding = s.forwarding ∧ s'.out_q = s.out_q) :
    s'.forwarding = s.forwarding ∧ s.out_q ⊆ s'.out_q := ⟨h.1, h.2 ▸ List.Subset.refl _⟩

theorem queue_opFrame (s : Router) (opid data : Bytes) :
    (s.opFrame opid data).1.forwarding = s.forwarding ∧ s.out_q ⊆ (s.opFrame opid data).1.out_q := by
  unfold opFrame
  dsimp only
  split
  · split
    · split
      · exact queue_of_eq (onlyOperators_listNext ..).queue
      · exact ⟨rfl, List.Subset.refl _⟩
    · exact ⟨rfl, List.Subset.refl _⟩
  · split
    · exact ⟨rfl, List.subset_append_left ..⟩
    · exact queue_of_eq (onlyOperators_sendOp ..).queue

theorem queue_signal (s : Router) (x : Signal) :
    (s.signal x).1.forwarding = s.forwarding ∧ (s.signal x).1.out_q = s.out_q := by
  cases x with
  | AGENTIN agentid data =>
    simp only [signal]
    split
    · exact (onlyOperators_announceNext ..).queue
    · exact ⟨rfl, rfl⟩
  | AGENTOUT agentid => exact ⟨rfl, rfl⟩

theorem queue_of_step (h : s.step e = some (s', o)) (he : ¬ e.Forwards) :
    s'.forwarding = s.forwarding ∧ s.out_q ⊆ s'.out_q := by
  cases step_cases h with
  | forward | forwarded | forwardFailed => exact absurd trivial he
  | opFrame data => exact queue_opFrame s _ data
  | agentConnect | opConnect => split <;> exact ⟨rfl, List.Subset.refl _⟩
  | agentFrame data =>
    unfold agentFrame
    dsimp only
    split
    · split <;> exact ⟨rfl, List.Subset.refl _⟩
    · exact ⟨rfl, List.Subset.refl _⟩
  | opListed => exact queue_of_eq (onlyOperators_listNext ..).queue
  | deliver =>
    unfold deliver
    dsimp only
    split <;> exact ⟨rfl, List.Subset.refl _⟩
  | signal => exact queue_of_eq (queue_signal ..)
  | signalSent | signalSendFailed => exact queue_of_eq (onlyOperators_announceNext ..).queue
  | _ => exact ⟨rfl, List.Subset.refl _⟩

theorem pending_of_step (hp : Pending agentid agentdata s os) (hk : Keeps s e) (h : s.step e = some (s', o)) :
    Pending agentid agentdata s' (os ++ o) := by
  rcases hp with hp | hp | hp
  · exact .inl (List.mem_append_left _ hp)
  · by_cases he : e.Forwards
    · cases step_cases h with
      | forward hf =>
        rw [hp] at hf
        cases hf
      | forwarded hf =>
        cases hp.symm.trans hf
        exact .inl (List.mem_append_right _ List.mem_cons_self)
      | forwardFailed => cases hk
      | _ => cases he
    · exact .inr (.inl ((queue_of_step h he).1.trans hp))
  · by_cases he : e.Forwards
    · cases step_cases h with
      | @forward agentid' agentdata' rest hf hq =>
        have hc : ({ s with out_q := rest } : Router).clients.contains agentid' = true :=
          Dict.contains_iff_mem_keys.2 (hk _ _ _ hq)
        rw [forward, if_pos hc]
        rw [hq] at hp
        rcases List.mem_cons.1 hp with hp | hp
        · exact .inr (.inl (congrArg some hp.symm))
        · exact .inr (.inr hp)
      | forwarded => exact .inr (.inr hp)
      | forwardFailed => cases hk
      | _ => cases he
    · exact .inr (.inr ((queue_of_step h he).2 hp))

/-! ### A command that is refused -/

/-- The operator has been told, or is being told. -/
def Refused (opid b : Bytes) (s : Router) (os : List Output) : Prop :=
  .sent (.operator opid) b ∈ os ∨ s.handlers.get? opid = some (.refusing b)

theorem refused_of_step (hd : opid ∈ s.drawn) (hr : Refused opid b s os) (hk : Keeps s e)
    (h : s.step e = some (s', o)) :
    Refused opid b s' (os ++ o) := by
  rcases hr with hr | hr
  · exact .inl (List.mem_append_left _ hr)
  by_cases he : e.operator = some opid
  · cases step_cases h with
    | opConnect pair hlen hnew =>
      cases he
      exact absurd hd hnew
    | opFrame data hpc | opLost hpc =>
      cases he
      rw [hr] at hpc
      cases hpc
    | opReplied hpc =>
      cases he
      rw [hr] at hpc
      rcases hpc with hpc | hpc <;> cases hpc
      exact .inl (List.mem_append_right _ List.mem_cons_self)
    | opListed hpc =>
      cases he
      rw [hr] at hpc
      cases hpc
    | opSendFailed =>
      cases he
      exact absurd hr (hk b)
    | _ => cases he
  · exact .inr ((handlers_of_step h he).trans hr)

/-! ### A frame -/

theorem toBytes_err {token : Bytes} (ht : token.length ≤ 16) :
    ∃ b, (CMD.ERR { token, reason := "Agent not found", extra := "" }).toBytes = .ok b := by
  refine CMD.toBytes_of_fits ?_ ?_
  · intro f hf
    simp only [CMD.fields, WSNErr.fields, List.mem_cons, List.not_mem_nil, or_false] at hf
    rcases hf with rfl | rfl | rfl | rfl | rfl
    · rfl
    · exact ⟨by decide, by decide⟩
    · rfl
    · exact ⟨by decide, by decide⟩
    · rfl
  · have hreason : (utf8Encode "Agent not found").length = 15 := by decide
    have hextra : (utf8Encode "").length = 0 := by decide
    simp only [CMD.frameLength, CMD.fields, WSNErr.fields, List.map_cons, List.map_nil, Field.size, List.sum_cons,
      List.sum_nil, hreason, hextra]
    omega

/-- What is sent of a frame: the command on the agent's websocket, or an `ERR` with its token to the operator. -/
def Answered (opid data : Bytes) (os : List Output) : Prop :=
  .sent (.agent (slice data 4 20)) (data.drop 20) ∈ os ∨
    ∃ c b, c.token = slice data 26 42 ∧ (CMD.ERR c).toBytes = .ok b ∧ .sent (.operator opid) b ∈ os

/-- No command waits to be sent, and no `ERR` is being sent. -/
def Drained (s : Router) : Prop :=
  s.out_q = [] ∧ s.forwarding = none ∧ ∀ opid data, s.handlers.get? opid ≠ some (.refusing data)

/-- A frame for an agent either goes into the queue or is refused. -/
theorem opFrame_cases (htoken : slice data 26 42 ≠ zeroToken) (h : s.step (.opFrame opid data) = some (s', o)) :
    Pending (slice data 4 20) (data.drop 20) s' [] ∨
      ∃ c b, c.token = slice data 26 42 ∧ (CMD.ERR c).toBytes = .ok b ∧ Refused opid b s' [] := by
  cases step_cases h
  unfold opFrame
  dsimp only
  rw [if_neg fun hz => htoken hz.1]
  split
  · exact .inl (.inr (.inr (List.mem_append_right _ List.mem_cons_self)))
  · have hlen : (slice data 26 42).length ≤ 16 := List.length_take_le _ _
    obtain ⟨b, hb⟩ := toBytes_err hlen
    refine .inr ⟨_, b, rfl, hb, .inr ?_⟩
    rw [sendOp, hb]
    exact Dict.get?_set_self ..

theorem handlers_drawn_of_run (h : Run step {} es s os) {pc : OpPc} (hp : s.handlers.get? opid = some pc) :
    opid ∈ s.drawn := by
  refine h.state_invariant (P := fun s => ∀ pc, s.handlers.get? opid = some pc → opid ∈ s.drawn) ?_ ?_ pc hp
  · intro s s' e o hp h pc hpc
    by_cases he : e.operator = some opid
    · cases step_cases h with
      | opConnect =>
        cases he
        split <;> exact List.mem_cons_self
      | opFrame data hpc' | opLost hpc' | opListed hpc' | opSendFailed hpc' =>
        cases he
        exact (clients_of_step h).1 (hp _ hpc')
      | opReplied hpc' =>
        cases he
        rcases hpc' with hpc' | hpc' <;> exact (clients_of_step h).1 (hp _ hpc')
      | _ => cases he
    · rw [handlers_of_step h he] at hpc
      exact (clients_of_step h).1 (hp pc hpc)
  · intro pc hpc
    cases hpc

theorem pending_of_run (h : Run step s es s' os) (hk : StepsMeet step Keeps s es)
    (hp : Pending agentid agentdata s []) : Pending agentid agentdata s' os :=
  h.invariant_where (P := Pending agentid agentdata) hk (fun hk hp hs => pending_of_step hp hk hs) hp

theorem refused_of_run (h : Run step s es s' os) (hk : StepsMeet step Keeps s es) (hd : opid ∈ s.drawn)
    (hr : Refused opid b s []) : Refused opid b s' os := by
  have hrun := h.invariant_where (P := fun s os => opid ∈ s.drawn ∧ Refused opid b s os) hk ?_ ⟨hd, hr⟩
  · exact hrun.2
  · rintro s s' e o os hk ⟨hd, hr⟩ hs
    exact ⟨(clients_of_step hs).1 hd, refused_of_step hd hr hk hs⟩

/-- In every run whose steps lose nothing, a frame is answered when nothing is left to be sent. -/
theorem answered_of_run (h₁ : Run step {} es s₁ os) (hf : s₁.step (.opFrame opid data) = some (s₂, o))
    (htoken : slice data 26 42 ≠ zeroToken) {es' : List Event} {os' : List Output} (h₂ : Run step s₂ es' s os')
    (hk : StepsMeet step Keeps s₂ es') (hd : Drained s) : Answered opid data os' := by
  obtain ⟨hq, hfor, hhandlers⟩ := hd
  rcases opFrame_cases htoken hf with hp | ⟨c, b, hc, hb, hr⟩
  · rcases pending_of_run h₂ hk hp with hp | hp | hp
    · exact .inl hp
    · rw [hfor] at hp
      cases hp
    · rw [hq] at hp
      cases hp
  · have hdrawn : opid ∈ s₁.drawn := by
      cases step_cases hf with
      | opFrame data hpc => exact handlers_drawn_of_run h₁ hpc
    rcases refused_of_run h₂ hk ((clients_of_step hf).1 hdrawn) hr with hr | hr
    · exact .inr ⟨c, b, hc, hb, hr⟩
    · exact absurd hr (hhandlers opid b)

def operatorO : Bytes := List.replicate 16 9

/-- A command with the token `2, 2, …` for the agent `7, 7, …`. -/
def frameForA : Bytes := [0, 0, 0, 42] ++ agentA ++ [0, 0, 0, 22, 0, 254] ++ List.replicate 16 2

def setUp : List Event :=
  [.agentConnect agentA true, .agentFrame agentA nopFrame, .signal, .opConnect operatorO true]

/-- The state behind these events. -/
def stateAfter (s : Router) (es : List Event) : Router := ((exec step s es).map Prod.fst).getD s

def received : Router := stateAfter {} (setUp ++ [.opFrame operatorO frameForA])

theorem drained_of_slots (hq : s.out_q = []) (hf : s.forwarding = none)
    (hs : s.handlers.slots = [some (operatorO, .receiving)]) : Drained s := by
  refine ⟨hq, hf, fun opid data h => ?_⟩
  rw [Dict.get?, hs, Dict.lookup] at h
  split at h <;> cases h

/-- The agent is still there. -/
theorem answered_of_run_frameForA : Answered operatorO frameForA
    [.send (.agent agentA) (frameForA.drop 20), .sent (.agent agentA) (frameForA.drop 20)] := by
  have h₁ : Run step {} setUp (stateAfter {} setUp) [] := .of_exec rfl
  have hf : (stateAfter {} setUp).step (.opFrame operatorO frameForA) = some (received, []) := rfl
  have h₂ : Run step received [.forward, .forwarded] (stateAfter received [.forward, .forwarded])
      [.send (.agent agentA) (frameForA.drop 20), .sent (.agent agentA) (frameForA.drop 20)] := .of_exec rfl
  have hforward : Keeps received .forward := by
    rintro agentid agentdata rest hq
    have hq' : received.out_q = [(agentA, frameForA.drop 20)] := rfl
    cases hq'.symm.trans hq
    exact List.mem_cons_self
  have hstep : received.step .forward =
      some (stateAfter received [.forward], [.send (.agent agentA) (frameForA.drop 20)]) := rfl
  have hdrained : Drained (stateAfter received [.forward, .forwarded]) := drained_of_slots rfl rfl rfl
  exact answered_of_run h₁ hf (by decide) h₂ (.cons hforward hstep (.cons trivial rfl .nil)) hdrained

/-- An agent that leaves while a command for it is in the queue: the command is gone, and the operator is not told. -/
theorem not_answered_frameForA :
    ¬ ∀ (es es' : List Event) (s₁ s₂ s : Router) (os o os' : List Output) (opid data : Bytes),
    Run step {} es s₁ os → s₁.step (.opFrame opid data) = some (s₂, o) → (slice data 4 20).length = 16 →
    slice data 26 42 ≠ zeroToken → Run step s₂ es' s os' → Drained s → Answered opid data os' := by
  intro h
  have := h setUp [.agentLost agentA, .forward] (stateAfter {} setUp) received
    (stateAfter received [.agentLost agentA, .forward]) [] [] [] operatorO frameForA
    (.of_exec rfl) rfl rfl (by decide) (.of_exec rfl) (drained_of_slots rfl rfl rfl)
  rcases this with h | ⟨_, _, _, _, h⟩ <;> cases h

end Wsnet.Router
