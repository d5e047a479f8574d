import Wsnet.Agent.Link

/-!
# An agent that is used for TCP connections

What an agent does that receives nothing but CONNECTs for TCP clients, SDs and OKs: `TcpStep` lists the
steps it can take, and `TcpOnly` is what then holds of it. The queue of a session holds messages with
the session's token.
-/

namespace Wsnet

/-- A message for a TCP client session: the CONNECT that asks for it, data, or its end. -/
def CMD.IsTcp : CMD → Prop
  | .CONNECT c => c.kind = .tcpClient
  | .SD _ | .OK _ => True
  | _ => False

/-- The queue of a session loses messages only, unless one is put into it. -/
theorem TcpClient.mem_inQ_of_step {s s' : TcpClient} {e : Event} {o : List Effect} {m : CMD} (hput : ∀ c, e ≠ .put c)
    (h : s.step e = some (s', o)) (hm : m ∈ s'.inQ) : m ∈ s.inQ := by
  cases e with
  | put c => exact absurd rfl (hput c)
  | main e => cases mainStep_of_step h <;> exact hm
  | dataIn e =>
    cases dataInStep_of_step h with
    | gotOk c inQ hc h hq | gotData c inQ hc h hq | gotOther c inQ hc h hq => rw [hq]; exact List.mem_cons_of_mem _ hm
    | _ => exact hm

namespace Agent
variable {a a' : Agent} {e : Event} {o : List Output} {i : Nat} {c : CMD} {s : Session}

/-- What holds of an agent with TCP client sessions only. -/
structure TcpOnly (a : Agent) : Prop where
  tables : Tables a
  entries : Entries a
  fits : ∀ s ∈ a.sessions, s.Fits
  task : ∀ s ∈ a.sessions, ∃ tc, s.task = .tcpClient tc ∧ ∀ m ∈ tc.inQ, m.token = s.cmd.token
  conns : a.conns = []
  files : ∀ t, a.fileQueues.get? t = none
  resolving : a.resolving = []
  incoming : a.incoming = .idle ∨ a.incoming = .sending [] none

namespace TcpOnly

theorem no_server (hp : TcpOnly a) {t : Bytes} {b : Branch} (hh : Has a.sessions i t b) : b = .tcpClient := by
  obtain ⟨s, hs, -, rfl⟩ := hh
  obtain ⟨tc, htc, -⟩ := hp.task s (List.mem_of_getElem? hs)
  rw [htc]; rfl

theorem servers (hp : TcpOnly a) (t : Bytes) : a.servers.contains t = false := by
  rw [Dict.contains_eq_false_iff]
  refine Option.eq_none_iff_forall_ne_some.2 fun i hi => ?_
  rcases hp.tables.server hi with h | h <;> cases hp.no_server h

/-- The queue of a token is that of its TCP client session. -/
theorem process (hp : TcpOnly a) {t : Bytes} (hi : a.processQueues.get? t = some i) :
    ∃ cmd tc, a.sessions[i]? = some ⟨cmd, .tcpClient tc⟩ ∧ cmd.token = t := by
  obtain ⟨⟨cmd, task⟩, hs, rfl, hb⟩ := hp.tables.process hi
  obtain ⟨tc, htc, -⟩ := hp.task _ (List.mem_of_getElem? hs)
  exact ⟨cmd, tc, by rw [hs, ← htc], rfl⟩

end TcpOnly

/-- The steps of such an agent. -/
inductive TcpStep (a : Agent) : Event → Agent → List Output → Prop
  /-- a session goes on -/
  | session {i : Nat} {cmd : WSNConnect} {tc tc' : TcpClient} {e : Session.Event} {e' : TcpClient.Event}
      {os : List Effect}
    (hs : a.sessions[i]? = some ⟨cmd, .tcpClient tc⟩) (hput : ∀ c, e' ≠ .put c)
    (he : Session.taskEvent ⟨cmd, .tcpClient tc⟩ e = .tcpClient e')
    (hsess : Session.step ⟨cmd, .tcpClient tc⟩ e = some (⟨cmd, .tcpClient tc'⟩, os)) (h : tc.step e' = some (tc', os)) :
    TcpStep a (.session i e) (a.putSession i ⟨cmd, .tcpClient tc'⟩ os).1 (os.map (.session cmd.token))
  /-- a message is put into the queue of its session -/
  | put {data : Bytes} {f : FileOs} {c : CMD} {i : Nat} {cmd : WSNConnect} {tc : TcpClient}
      (hd : CMD.fromBytes data = .ok c)
    (hq : a.processQueues.get? c.token = some i) (hs : a.sessions[i]? = some ⟨cmd, .tcpClient tc⟩)
    (ht : cmd.token = c.token) :
    TcpStep a (.recv data f)
      { a with sessions := a.sessions.set i ⟨cmd, .tcpClient { tc with inQ := tc.inQ ++ [c] }⟩, incoming := .idle }
      [.received c, .returned true]
  /-- data for a token without a queue is refused -/
  | refuse {data : Bytes} {f : FileOs} {c : WSNSocketData} (hd : CMD.fromBytes data = .ok (.SD c))
    (hq : a.processQueues.get? c.token = none) :
    TcpStep a (.recv data f) { a with incoming := .sending [] none }
      [.received (.SD c), .sent (errReply a.full c.token "Unexpected token for socket data!" "")]
  /-- so is an end, without a reply -/
  | ignore {data : Bytes} {f : FileOs} {c : WSNOK} (hd : CMD.fromBytes data = .ok (.OK c))
    (hq : a.processQueues.get? c.token = none) :
    TcpStep a (.recv data f) { a with incoming := .idle } [.received (.OK c), .returned true]
  | create {data : Bytes} {f : FileOs} {c : WSNConnect} (hd : CMD.fromBytes data = .ok (.CONNECT c))
      (hk : c.kind = .tcpClient)
    (hq : a.processQueues.get? c.token = none) :
    TcpStep a (.recv data f)
      { a with sessions := a.sessions ++ [⟨c, .tcpClient { token := c.token, full := a.full }⟩], incoming := .idle }
      [.received (.CONNECT c), .returned true]
  | undecodable {data : Bytes} {f : FileOs} {e : PyErr} (hd : CMD.fromBytes data = .error e) :
    TcpStep a (.recv data f) a [.returned true]
  | replied (h : a.incoming = .sending [] none) : TcpStep a .sent { a with incoming := .idle } [.returned true]

/-- The step of a TCP client session is a step of its machine. -/
theorem tcpClient_of_step {cmd : WSNConnect} {tc : TcpClient} {s' : Session} {e : Session.Event} {os : List Effect}
    (h : Session.step ⟨cmd, .tcpClient tc⟩ e = some (s', os)) :
    ∃ tc' e', s' = ⟨cmd, .tcpClient tc'⟩ ∧ Session.taskEvent ⟨cmd, .tcpClient tc⟩ e = .tcpClient e' ∧
      tc.step e' = some (tc', os) := by
  obtain ⟨cmd', task'⟩ := s'
  obtain ⟨hcmd, ht⟩ := Session.step_eq_some h
  generalize Session.taskEvent _ e = e₀ at ht ⊢
  cases hcmd
  cases ht with
  | tcpClient hstep => exact ⟨_, _, rfl, rfl, hstep⟩

theorem not_put_of_taskEvent {cmd : WSNConnect} {tc : TcpClient} {e : Session.Event} {e' : TcpClient.Event}
    (hp : e.isPut = false) (h : Session.taskEvent ⟨cmd, .tcpClient tc⟩ e = .tcpClient e') (c : CMD) : e' ≠ .put c := by
  rintro rfl
  cases e with
  | opening o =>
    simp only [Session.taskEvent, Session.outcome] at h
    split at h <;> cases h
  | _ => cases h <;> cases hp

/-- The step inversion. -/
theorem TcpOnly.step_cases (hp : TcpOnly a) (hsend : e.isSendFailed = false) (hm : ∀ c, e.cmd? = some c → c.IsTcp)
    (h : a.step e = some (a', o)) : TcpStep a e a' o := by
  cases e with
  | session i e =>
    rcases Agent.step_cases h with ⟨i, e, s, s', os, heq, hput, hs, hstep, ho⟩ | ⟨h, -⟩
    · cases heq
      obtain ⟨⟩ := ho
      obtain ⟨tc, htc, -⟩ := hp.task s (List.mem_of_getElem? hs)
      obtain ⟨cmd, task⟩ := s
      cases htc
      obtain ⟨tc', e', rfl, he, htc⟩ := tcpClient_of_step hstep
      exact .session hs (not_put_of_taskEvent hput he) he hstep htc
    · cases h
  | recv data f =>
    simp only [step] at h
    split at h
    case isFalse => cases h
    rename_i hidle
    cases hd : CMD.fromBytes data with
    | error e =>
      simp only [hd, Option.some.injEq, Prod.mk.injEq] at h
      obtain ⟨rfl, rfl⟩ := h
      exact .undecodable hd
    | ok c =>
      have htcp : c.IsTcp := hm c (by simp [Event.cmd?, hd])
      simp only [hd, Option.some.injEq] at h
      cases hq : a.processQueues.get? c.token with
      | some i =>
        obtain ⟨cmd, tc, hs, ht⟩ := hp.process hq
        simp only [processIncoming, hq, hs, andThen, return_] at h
        obtain ⟨rfl, rfl⟩ := Prod.mk.inj h
        exact .put hd hq hs ht
      | none =>
        simp only [processIncoming, hq, hp.files, hp.servers, Bool.false_eq_true, false_and, if_false] at h
        cases c with
        | CONNECT c =>
          simp only [dispatch, andThen, return_] at h
          obtain ⟨rfl, rfl⟩ := Prod.mk.inj h
          have hk : c.kind = .tcpClient := htcp
          simp only [Session.create, hk]
          exact .create hd hk hq
        | SD c =>
          simp only [dispatch, andThen, sendAll] at h
          obtain ⟨rfl, rfl⟩ := Prod.mk.inj h
          exact .refuse hd hq
        | OK c =>
          simp only [dispatch, andThen, CMD.type, CMDType.value, return_] at h
          obtain ⟨rfl, rfl⟩ := Prod.mk.inj h
          exact .ignore hd hq
        | _ => cases htcp
  | sent =>
    simp only [step, stepIncoming] at h
    rcases hp.incoming with hi | hi <;> simp only [hi] at h
    · cases h
    · simp only [sendAll, return_, Option.some.injEq, Prod.mk.injEq] at h
      obtain ⟨rfl, rfl⟩ := h
      exact .replied hi
  | sendFailed exc => cases hsend
  | drained | drainFailed =>
    simp only [step, stepIncoming] at h
    rcases hp.incoming with hi | hi <;> simp [hi] at h
  | accept i peername =>
    simp only [step] at h
    split at h
    · rename_i hs
      obtain ⟨tc, htc, -⟩ := hp.task _ (List.mem_of_getElem? hs)
      cases htc
    · cases h
  | conn j e => cases e <;> simp [step, hp.conns] at h
  | resolved k | resolveSent k | resolveFailed k => simp [step, hp.resolving] at h

theorem TcpOnly.init (full : Bool) (info : WSNGetInfoReply) : TcpOnly (init full info) where
  tables := .init full info
  entries _ _ _ hs := absurd (List.mem_of_getElem? hs) List.not_mem_nil
  fits _ h := absurd h List.not_mem_nil
  task _ h := absurd h List.not_mem_nil
  conns := rfl
  files _ := rfl
  resolving := rfl
  incoming := .inl rfl

theorem TcpOnly.step (hp : TcpOnly a) (hsend : e.isSendFailed = false) (hm : ∀ c, e.cmd? = some c → c.IsTcp)
    (h : a.step e = some (a', o)) : TcpOnly a' := by
  have htables := hp.tables.step h
  have hentries := hp.entries.step hp.tables h
  have hfits : ∀ s ∈ a'.sessions, s.Fits :=
    (preserved (P := fun a => ∀ s ∈ a.sessions, s.Fits)
      (fun hs _ h hp => forall_sessions_putSession ((hp _ (List.mem_of_getElem? hs)).step h) hp)
      (fun h hp => forall_sessions_act (fun _ => id) (fun hp => by simpa [Session.Fits] using hp)
      Session.fits_create h hp)
      h hp.fits)
  -- the sessions of the new state, one by one
  suffices h : (∀ s ∈ a'.sessions, ∃ tc, s.task = .tcpClient tc ∧ ∀ m ∈ tc.inQ, m.token = s.cmd.token) ∧
      a'.conns = a.conns ∧ a'.fileQueues = a.fileQueues ∧ a'.resolving = a.resolving ∧
        (a'.incoming = .idle ∨ a'.incoming = .sending [] none) by
    obtain ⟨h1, h2, h3, h4, h5⟩ := h
    exact ⟨htables, hentries, hfits, h1, h2.trans hp.conns, fun t => by rw [h3]; exact hp.files t,
      h4.trans hp.resolving, h5⟩
  cases hp.step_cases hsend hm h with
  | @session i cmd tc tc' e e' os hs hput he hsess hstep =>
    refine ⟨fun s hs' => ?_, by simp, by simp, by simp, by simpa using hp.incoming⟩
    rw [sessions_putSession] at hs'
    rcases List.mem_or_eq_of_mem_set hs' with hs' | rfl
    · exact hp.task s hs'
    · obtain ⟨tc₀, ⟨⟩, hq⟩ := hp.task _ (List.mem_of_getElem? hs)
      exact ⟨tc', rfl, fun m hm => hq m (TcpClient.mem_inQ_of_step hput hstep hm)⟩
  | @put data f c i cmd tc hd hq hs ht =>
    refine ⟨fun s hs' => ?_, rfl, rfl, rfl, .inl rfl⟩
    rcases List.mem_or_eq_of_mem_set hs' with hs' | rfl
    · exact hp.task s hs'
    · obtain ⟨tc₀, ⟨⟩, hq⟩ := hp.task _ (List.mem_of_getElem? hs)
      refine ⟨_, rfl, fun m hm => ?_⟩
      rcases List.mem_append.1 hm with hm | hm
      · exact hq m hm
      · rw [List.mem_singleton.1 hm, ht]
  | refuse | ignore | replied => exact ⟨hp.task, rfl, rfl, rfl, by simp⟩
  | @create data f c hd hk hq =>
    refine ⟨fun s hs' => ?_, rfl, rfl, rfl, .inl rfl⟩
    rcases List.mem_append.1 hs' with hs' | hs'
    · exact hp.task s hs'
    · rw [List.mem_singleton.1 hs']
      exact ⟨_, rfl, by simp⟩
  | undecodable => exact ⟨hp.task, rfl, rfl, rfl, hp.incoming⟩

end Agent

end Wsnet
