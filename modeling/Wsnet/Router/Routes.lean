import Wsnet.Lib.Log
import Wsnet.Router.Delivery

/-!
# Who gets an agent's frame

Nothing keeps two operators from using one token with one agent. The entry in `data_lookop` is then that of the one
whose frame was accepted last, and a send that fails deletes it whoever else might have used it. So the history of
the accepted frames and of the failed sends decides, turn by turn, who gets the next frame (`delivers_latest`).
-/

namespace Wsnet.Router
variable {s s' : Router} {e : Event} {o : List Output} {es : List Event} {tr tr₁ tr₂ : Trace} {q : Queues}
  {agentid token data : Bytes}

/-- What a step does to the route of an agent and a token: an operator takes it, or a failed send clears it. -/
def route (s : Router) : Event → Option ((Bytes × Bytes) × Option Bytes)
  | .opFrame opid data =>
    (s.accepts (.opFrame opid data)).map fun _ => ((slice data 4 20, slice data 26 42), some opid)
  | .deliverFailed => s.delivering.map fun (tid, _, _) => ((tid.take 16, tid.drop 16), none)
  | _ => none

def routes (tr : Trace) : List ((Bytes × Bytes) × Option Bytes) := tr.filterMap fun x => x.1.route x.2.1

theorem routes_snoc : routes (tr ++ [(s, e, o)]) = routes tr ++ (s.route e).toList := by
  rw [routes, List.filterMap_append]
  cases h : s.route e <;> simp [routes, h]

/-- What is done with a frame when its turn comes. -/
def delivery (opid? : Option Bytes) (x : Bytes × Bytes × Bytes) : Output :=
  match opid? with
  | some opid => .send (.operator opid) x.2.2
  | none => .notFound x.1 x.2.1

/-- A route goes by the id of an agent, and the id has sixteen bytes. -/
def IdOfAgent (k : Bytes × Bytes) : Prop := k.1.length = 16

theorem eq_of_append (k : Bytes × Bytes) (hk : IdOfAgent k) :
    ∀ k', IdOfAgent k' → k'.1 ++ k'.2 = k.1 ++ k.2 → k' = k := by
  intro k' hk' heq
  obtain ⟨h₁, h₂⟩ := List.append_inj heq (hk'.trans hk.symm)
  exact Prod.ext h₁ h₂

theorem in_q_queues (s : Router) : s.queues.in_q = s.in_q := rfl

/-- What is known of the routes along a trace. -/
structure Routed (tr : Trace) (q : Queues) : Prop where
  ids : ∀ x ∈ q.in_q, x.1.length = 16
  delivering : ∀ tid opid data, q.delivering = some (tid, opid, data) →
    ∃ k, IdOfAgent k ∧ tid = k.1 ++ k.2
  data_lookop : q.data_lookop.Shows IdOfAgent (fun k => k.1 ++ k.2) (routes tr)
  frames : InTurn (fun x o => ∃ opid?, o = [delivery opid? x]) (arrived tr) q.in_q (turns .deliver tr)

/-- A step that neither takes a frame nor a route. -/
theorem Routed.of_eq {q' : Queues} (hp : Routed tr q) (hr : s.route e = none) (hf : e.frame? = none)
    (he : e ≠ .deliver) (hi : q'.in_q = q.in_q) (hl : q'.data_lookop = q.data_lookop)
    (hd : ∀ x, q'.delivering = some x → q.delivering = some x) : Routed (tr ++ [(s, e, o)]) q' where
  ids := hi ▸ hp.ids
  delivering tid opid data h := hp.delivering tid opid data (hd _ h)
  data_lookop := by
    rw [hl, routes_snoc, hr]
    simpa using hp.data_lookop
  frames := by
    rw [hi, arrived_snoc, turns_snoc, hf, if_neg he]
    simpa using hp.frames

/-- The turn of a frame. -/
theorem Routed.turn {x : Bytes × Bytes × Bytes} {rest : List (Bytes × Bytes × Bytes)} {q' : Queues}
    (hp : Routed tr q) (opid? : Option Bytes) (hq : q.in_q = x :: rest) (hi : q'.in_q = rest)
    (hl : q'.data_lookop = q.data_lookop)
    (hd : ∀ tid opid data, q'.delivering = some (tid, opid, data) → ∃ k, IdOfAgent k ∧ tid = k.1 ++ k.2) :
    Routed (tr ++ [(s, .deliver, [delivery opid? x])]) q' where
  ids y hy := hp.ids y (by rw [hq]; exact List.mem_cons_of_mem _ (hi ▸ hy))
  delivering := hd
  data_lookop := by
    rw [hl, routes_snoc]
    simpa [route] using hp.data_lookop
  frames := by
    rw [hi, arrived_snoc, turns_snoc, if_pos rfl]
    have h := hp.frames
    rw [hq] at h
    simpa [Event.frame?] using h.take ⟨opid?, rfl⟩

theorem Routed.step (hp : Routed tr s.queues) (hz : Sized s.directory) (hm : Moves s e q o) :
    Routed (tr ++ [(s, e, o)]) q := by
  cases hm with
  | @accept opid data ha hc =>
    refine ⟨hp.ids, hp.delivering, ?_, ?_⟩
    · have hr : s.route (.opFrame opid data) = some ((slice data 4 20, slice data 26 42), some opid) := by
        rw [route, ha, Option.map_some]
      rw [routes_snoc, hr]
      exact hp.data_lookop.set (eq_of_append (slice data 4 20, slice data 26 42) (hz.agents _ hc)) opid
    · rw [arrived_snoc, turns_snoc]
      simpa [Event.frame?] using hp.frames
  | forward => exact hp.of_eq rfl rfl (by rintro ⟨⟩) rfl rfl fun _ h => h
  | @receive agentid data hf hc ht =>
    refine ⟨fun x hx => ?_, hp.delivering, ?_, ?_⟩
    · rcases List.mem_append.1 hx with hx | hx
      · exact hp.ids x hx
      · rw [List.mem_singleton.1 hx]
        exact hz.clients _ hc
    · rw [routes_snoc]
      simpa [route] using hp.data_lookop
    · rw [arrived_snoc, turns_snoc, hf]
      have h := hp.frames.put [(agentid, slice data 6 22, data)]
      rw [in_q_queues] at h
      simpa using h
  | @deliver agentid token data opid rest hq hl =>
    refine hp.turn (some opid) hq rfl rfl ?_
    rintro _ _ _ ⟨⟩
    exact ⟨(agentid, token), hp.ids (agentid, token, data) (show _ ∈ s.in_q from hq ▸ List.mem_cons_self), rfl⟩
  | drop hq hl => exact hp.turn none hq rfl rfl hp.delivering
  | delivered => exact hp.of_eq rfl rfl (by rintro ⟨⟩) rfl rfl (by rintro x ⟨⟩)
  | @deliverFailed tid opid data hd =>
    refine ⟨hp.ids, by rintro _ _ _ ⟨⟩, ?_, ?_⟩
    · obtain ⟨k, hk, rfl⟩ := hp.delivering tid opid data hd
      have hr : s.route .deliverFailed = some (k, none) := by
        have htake : (k.1 ++ k.2).take 16 = k.1 := List.take_left' hk
        have hdrop : (k.1 ++ k.2).drop 16 = k.2 := List.drop_left' hk
        simp [route, hd, htake, hdrop]
      rw [routes_snoc, hr]
      exact hp.data_lookop.del (eq_of_append k hk)
    · rw [arrived_snoc, turns_snoc]
      simpa [Event.frame?] using hp.frames
  | other ha hf ht =>
    refine hp.of_eq ?_ hf (by rintro rfl; exact ht trivial) rfl rfl fun _ h => h
    cases e with
    | opFrame opid data => rw [route, ha, Option.map_none]
    | deliverFailed => exact absurd trivial ht
    | _ => rfl

theorem routed_of_run (h : Run (traced step) {} es s tr) : Sized s.directory ∧ Routed tr s.queues := by
  refine h.invariant (P := fun s tr => Sized s.directory ∧ Routed tr s.queues) ?_ ?_
  · intro s s' e o tr hp hs
    obtain ⟨o, hstep, rfl⟩ := Run.of_traced hs
    exact ⟨hp.1.step hstep, hp.2.step hp.1 (moves_of_step hstep)⟩
  · refine ⟨⟨?_, ?_, ?_⟩, ?_, ?_, .empty, .nil⟩
    · exact fun id hid => by cases hid
    · exact fun id reply hid => by cases hid
    · exact fun id hid => by cases hid
    · exact fun x hx => by cases hx
    · exact fun tid opid data h => by cases h

/-- The frames that have come have their turns in order, and what is done in a turn is decided by the routes as they
are then: the frame goes to the operator that used its agent and token last, unless a send of such a frame has
failed since. What has not had its turn is in the queue. -/
structure DeliversLatest (tr : Trace) (s : Router) : Prop where
  turn : ∀ tr₁ s₁ o tr₂, tr = tr₁ ++ (s₁, .deliver, o) :: tr₂ →
    ∃ x, (arrived tr₁)[(turns .deliver tr₁).length]? = some x ∧ o = [delivery (latest (routes tr₁) (x.1, x.2.1)) x]
  queued : arrived tr = (arrived tr).take (turns .deliver tr).length ++ s.in_q

theorem delivers_latest (h : Run (traced step) {} es s tr) : DeliversLatest tr s := by
  refine ⟨?_, ?_⟩
  · rintro tr₁ s₁ o tr₂ rfl
    obtain ⟨es₁, es₂, s₂, rfl, h₁, hstep, -⟩ := h.split_traced
    obtain ⟨-, hp⟩ := routed_of_run h₁
    have hhead : ∀ {x rest}, s₁.in_q = x :: rest → (arrived tr₁)[(turns .deliver tr₁).length]? = some x := by
      intro x rest hq
      have h := hp.frames
      rw [in_q_queues, hq] at h
      exact h.head
    have hlatest : ∀ {agentid token data rest}, s₁.in_q = (agentid, token, data) :: rest →
        s₁.data_lookop.get? (agentid ++ token) = latest (routes tr₁) (agentid, token) := by
      intro agentid token data rest hq
      have hmem : (agentid, token, data) ∈ s₁.in_q := hq ▸ List.mem_cons_self
      exact hp.data_lookop (agentid, token) (hp.ids _ hmem)
    have hm := moves_of_step hstep
    generalize s₂.queues = q at hm
    cases hm with
    | deliver hq hl => exact ⟨_, hhead hq, by rw [← hlatest hq, hl]; rfl⟩
    | drop hq hl => exact ⟨_, hhead hq, by rw [← hlatest hq, hl]; rfl⟩
    | other ha hf ht => exact absurd trivial ht
  · obtain ⟨handled, heq, hr⟩ := (routed_of_run h).2.frames
    rw [← hr.length_eq, heq, in_q_queues, List.take_left]

def operatorQ : Bytes := List.replicate 16 8

/-- Two operators use one token. The second gets the answer, the send to it fails, and nobody gets the next one. -/
def sharedToken : List Event :=
  setUp ++ [.opConnect operatorQ true, .opFrame operatorO frameForA, .opFrame operatorQ frameForA,
    .agentFrame agentA answerOfA, .deliver, .deliverFailed, .agentFrame agentA answerOfA, .deliver]

theorem delivers_latest_sharedToken : ∃ s tr, Run (traced step) {} sharedToken s tr ∧
    turns .deliver tr = [[.send (.operator operatorQ) answerOfA], [.notFound agentA (List.replicate 16 2)]] ∧
      DeliversLatest tr s :=
  have h : Run (traced step) {} sharedToken _ _ := .of_exec rfl
  ⟨_, _, h, rfl, delivers_latest h⟩

end Wsnet.Router
