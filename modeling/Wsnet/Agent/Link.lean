import Wsnet.Agent.Entries
import Wsnet.Protocol.Kept

/-!
# An agent on an ordered transport

A `Link` is an agent together with the frames on their way to it and from it, in order. A frame is the
encoding of a message and is decoded where it arrives: what is on its way is looked at through
`decoded`, the commands the frames decode to.
-/

namespace Wsnet

/-- The commands that frames decode to; a frame that is no command is left out. -/
def decoded (bs : List Bytes) : List CMD := bs.filterMap fun b => (CMD.fromBytes b).toOption

section Decoded
variable {b : Bytes} {bs bs' : List Bytes} {c m : CMD}

@[simp] theorem decoded_nil : decoded [] = [] := rfl

@[simp] theorem decoded_append : decoded (bs ++ bs') = decoded bs ++ decoded bs' := List.filterMap_append

theorem decoded_cons_ok (h : CMD.fromBytes b = .ok c) : decoded (b :: bs) = c :: decoded bs := by
  simp [decoded, h, Except.toOption]

theorem decoded_cons_error {e : PyErr} (h : CMD.fromBytes b = .error e) : decoded (b :: bs) = decoded bs := by
  simp [decoded, h, Except.toOption]

theorem toOption_eq_some {α : Type} {x : Except PyErr α} {a : α} : x.toOption = some a ↔ x = .ok a := by
  cases x <;> simp [Except.toOption]

theorem mem_decoded : m ∈ decoded bs ↔ ∃ b ∈ bs, CMD.fromBytes b = .ok m := by
  simp only [decoded, List.mem_filterMap, toOption_eq_some]

end Decoded

/-- The frames of messages sent one after another; one that cannot be encoded raises before it is sent. -/
def frames (cs : List CMD) : List Bytes := cs.filterMap fun c => c.toBytes.toOption

@[simp] theorem frames_nil : frames [] = [] := rfl

@[simp] theorem frames_append (cs cs' : List CMD) : frames (cs ++ cs') = frames cs ++ frames cs' :=
  List.filterMap_append

theorem frames_cons (c : CMD) (cs : List CMD) : frames (c :: cs) = frames [c] ++ frames cs := by
  rw [← frames_append, List.singleton_append]

theorem mem_frames {cs : List CMD} {b : Bytes} : b ∈ frames cs ↔ ∃ c ∈ cs, c.toBytes = .ok b := by
  simp only [frames, List.mem_filterMap, toOption_eq_some]

/-- What arrives is decoded from the frame of a message that was sent. -/
theorem mem_decoded_frames {cs : List CMD} {m : CMD} (h : m ∈ decoded (frames cs)) :
    ∃ c ∈ cs, ∃ b, c.toBytes = .ok b ∧ CMD.fromBytes b = .ok m := by
  obtain ⟨b, hb, hm⟩ := mem_decoded.1 h
  obtain ⟨c, hc, hcb⟩ := mem_frames.1 hb
  exact ⟨c, hc, b, hcb, hm⟩

/-- What is decoded from the frame of a message keeps the type and the token. -/
theorem kept_of_mem_decoded {c m : CMD} (h : m ∈ decoded (frames [c])) :
    m.type = c.type ∧ (c.token.length = 16 → m.token = c.token) := by
  obtain ⟨c', hc, b, hb, hm⟩ := mem_decoded_frames h
  obtain rfl := List.mem_singleton.1 hc
  exact ⟨CMD.type_of_fromBytes hb hm, fun ht => CMD.token_of_frame hb ht hm⟩

/-- The messages among the outputs. -/
def Agent.sentMessages (os : List Agent.Output) : List CMD := os.filterMap Agent.Output.message?

/-- An agent, the frames it will receive, and the frames it has sent and nobody has taken. -/
structure Link where
  agent : Agent
  up : List Bytes := []
  down : List Bytes := []

namespace Link

/-- A step of the agent: `process_incoming` gets the first frame, all other steps are the agent's own. -/
def step (l : Link) (e : Agent.Event) : Option (Link × List Agent.Output) :=
  match e, l.up with
  | .recv data f, b :: up =>
    if data = b then
      (l.agent.step (.recv data f)).map fun r => (⟨r.1, up, l.down ++ frames (Agent.sentMessages r.2)⟩, r.2)
    else none
  | .recv _ _, [] => none
  | e, up => (l.agent.step e).map fun r => (⟨r.1, up, l.down ++ frames (Agent.sentMessages r.2)⟩, r.2)

/-- A step of the link is a step of its agent; a frame leaves `up` when it is received. -/
theorem step_eq_some {l l' : Link} {e : Agent.Event} {o : List Agent.Output} (h : l.step e = some (l', o)) :
    l.agent.step e = some (l'.agent, o) ∧ l'.down = l.down ++ frames (Agent.sentMessages o) ∧
      ((∃ data f, e = .recv data f ∧ l.up = data :: l'.up) ∨ (∀ data f, e ≠ .recv data f) ∧ l'.up = l.up) := by
  obtain ⟨a, up, down⟩ := l
  cases e with
  | recv data f =>
    cases up with
    | nil => cases h
    | cons b up =>
      simp only [step] at h
      split at h
      · obtain ⟨r, hr, heq⟩ := Option.map_eq_some_iff.1 h
        obtain ⟨rfl, rfl⟩ := Prod.mk.inj heq
        exact ⟨hr, rfl, .inl ⟨data, f, rfl, by rw [‹data = b›]⟩⟩
      · cases h
  | _ =>
    obtain ⟨r, hr, heq⟩ := Option.map_eq_some_iff.1 h
    obtain ⟨rfl, rfl⟩ := Prod.mk.inj heq
    exact ⟨hr, rfl, .inr ⟨fun _ _ h => (by cases h), rfl⟩⟩

/-- The command that an event receives is the first on its way. -/
theorem cmd?_of_step {l l' : Link} {e : Agent.Event} {o : List Agent.Output} {c : CMD} (h : l.step e = some (l', o))
    (hc : e.cmd? = some c) : decoded l.up = c :: decoded l'.up := by
  obtain ⟨-, -, ⟨data, f, rfl, hup⟩ | ⟨he, -⟩⟩ := step_eq_some h
  · rw [hup]
    unfold Agent.Event.cmd? at hc
    cases hd : CMD.fromBytes data with
    | ok c' => simp [hd] at hc; rw [← hc]; exact decoded_cons_ok hd
    | error e => simp [hd] at hc
  · cases e with
    | recv data f => exact absurd rfl (he data f)
    | _ => cases hc

/-- Without a command the ones on their way stay. -/
theorem decoded_of_step {l l' : Link} {e : Agent.Event} {o : List Agent.Output} (h : l.step e = some (l', o))
    (hc : e.cmd? = none) : decoded l'.up = decoded l.up := by
  obtain ⟨-, -, ⟨data, f, rfl, hup⟩ | ⟨-, hup⟩⟩ := step_eq_some h
  · rw [hup]
    unfold Agent.Event.cmd? at hc
    cases hd : CMD.fromBytes data with
    | ok c' => simp [hd] at hc
    | error e => exact (decoded_cons_error hd).symm
  · rw [hup]

end Link

end Wsnet
