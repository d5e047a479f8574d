import Wsnet.Operator.SspiProxy

/-!
# Authentication in steps

`WSNETAuth`, `WSNETDirectAuth` and `WSNETSSPIProxy` have one `authenticate` in three copies, which
differ in how a command is sent and its reply received. A call sends one command, checks the reply for
an error, advances `iter` and reads three attributes of the reply; `iter` decides which NTLM message
comes next. A reply that lacks the attributes is noticed when `iter` has been advanced already.
-/

namespace Wsnet

/-- `WSNAuthError.get_details` -/
def WSNAuthError.get_details (c : WSNAuthError) : String := "Status: " ++ c.status ++ " Message: " ++ c.msg

namespace Operator

/-- What `auth_type.upper()` is compared with. -/
inductive AuthType
  | KERBEROS | NTLM | other
  deriving DecidableEq, Repr

structure AuthArgs where
  auth_type : AuthType
  username : String
  target : String
  credusage : Int
  flags : Int
  authdata : Bytes

/-- A command sent, or not, and what the wait for its reply returns or raises, if it ends. -/
structure Asked where
  sent : Bool
  reply : Option (Except PyErr CMD)

/-- What a call returns: it still waits, or it is `None`, or three values and an error of which one side is `None`. -/
inductive Returned
  | waits
  | none
  | tuple (r : Except PyErr (String × Int × Bytes))
  deriving DecidableEq

/-- `iter` behind a call, what the call has sent and what it returns. -/
structure Authenticated where
  iter : Nat
  sent : Option CMD := none
  result : Returned
  deriving DecidableEq

/-- `reply.status, reply.ctxattr, reply.authdata` -/
def attributes : CMD → Except PyErr (String × Int × Bytes)
  | .NTLMAUTHREPLY c => .ok (c.status, c.ctxattr, c.authdata)
  | .NTLMCHALLREPLY c => .ok (c.status, c.ctxattr, c.authdata)
  | .KERBEROSREPLY c => .ok (c.status, c.ctxattr, c.authdata)
  | _ => .error .attributeError

/-- One command and its reply. -/
def ask_one (iter : Nat) (cmd : CMD) (asked : Asked) : Authenticated :=
  let sent := if asked.sent then some cmd else none
  match asked.reply with
  | none => { iter, sent, result := .waits }
  | some (.error e) => { iter, sent, result := .tuple (.error e) }
  | some (.ok (.AUTHERR c)) =>
    { iter, sent, result := .tuple (.error (.exception ("Connection failed, proxy sent error. Err: " ++ c.get_details))) }
  | some (.ok reply) => { iter := iter + 1, sent, result := .tuple (attributes reply) }

/-- The command of a call. -/
def command (token : Bytes) (iter : Nat) (x : AuthArgs) : Option CMD :=
  match x.auth_type with
  | .KERBEROS => some (.KERBEROS ⟨token, x.target, x.username, x.credusage, x.flags, x.authdata⟩)
  | .NTLM =>
    if iter = 0 then some (.NTLMAUTH ⟨token, x.username, x.credusage, x.flags, x.target⟩)
    else if iter = 1 then some (.NTLMCHALL ⟨token, x.authdata, x.flags, x.target⟩)
    else none
  | .other => none

/-- `setup` may raise; `tooMany` is the text of the exception for a third NTLM message. -/
def authenticate (tooMany : String) (token : Bytes) (setup : Except PyErr Unit) (ask : CMD → Asked) (iter : Nat)
    (x : AuthArgs) : Authenticated :=
  match setup with
  | .error e => { iter, result := .tuple (.error e) }
  | .ok () =>
    match command token iter x, x.auth_type with
    | some cmd, _ => ask_one iter cmd (ask cmd)
    | none, .other => { iter, result := .none }
    | none, _ => { iter, result := .tuple (.error (.exception tooMany)) }

/-- The command is written and sent once, and one item taken from a queue. -/
def send_and_get (send : Except PyErr Unit) (reply : Option (Except PyErr CMD)) (cmd : CMD) : Asked :=
  match cmd.toBytes, send with
  | .error e, _ => { sent := false, reply := some (.error e) }
  | .ok _, .error e => { sent := false, reply := some (.error e) }
  | .ok _, .ok () => { sent := true, reply }

/-- How one of the classes asks, in the circumstances `ι` of a call: a reply is to what was sent. -/
structure Client (ι : Type) where
  tooMany : String
  token : Bytes
  setup : ι → Except PyErr Unit := fun _ => .ok ()
  ask : ι → CMD → Asked
  sends : ∀ {w : ι} {cmd reply : CMD}, (ask w cmd).reply = some (.ok reply) → (ask w cmd).sent = true

def Client.authenticate {ι : Type} (c : Client ι) (w : ι) : Nat → AuthArgs → Authenticated :=
  Operator.authenticate c.tooMany c.token (c.setup w) (c.ask w)

theorem sends_send_and_get {send : Except PyErr Unit} {r : Option (Except PyErr CMD)} {cmd reply : CMD}
    (h : (send_and_get send r cmd).reply = some (.ok reply)) : (send_and_get send r cmd).sent = true := by
  revert h
  unfold send_and_get
  split
  · simp
  · simp
  · exact fun _ => rfl

/-! ### The three classes -/

/-- What `sendWebSocketData` raises, and the frames that are queued. -/
structure WSNETAuth where
  send : Except PyErr Unit := .ok ()
  internal_in_q : List Bytes

/-- `read_in` decodes the frame; errors of `setup` are not looked at. -/
def WSNETAuth.ask (w : WSNETAuth) : CMD → Asked := send_and_get w.send (w.internal_in_q.head?.map CMD.fromBytes)

def WSNETAuth.client (token : Bytes) : Client WSNETAuth where
  tooMany := "Too many tiers for NTLM!"
  token := token
  ask := WSNETAuth.ask
  sends := sends_send_and_get

def WSNETAuth.authenticate (token : Bytes) : WSNETAuth → Nat → AuthArgs → Authenticated := (client token).authenticate

/-- What `ws.send` raises, and the pairs that are queued. -/
structure WSNETDirectAuth where
  send : Except PyErr Unit := .ok ()
  internal_in_q : List (Except PyErr CMD)

def WSNETDirectAuth.ask (w : WSNETDirectAuth) : CMD → Asked := send_and_get w.send w.internal_in_q.head?

def WSNETDirectAuth.client (token : Bytes) : Client WSNETDirectAuth where
  tooMany := "Too many tries for NTLM!"
  token := token
  ask := WSNETDirectAuth.ask
  sends := sends_send_and_get

def WSNETDirectAuth.authenticate (token : Bytes) : WSNETDirectAuth → Nat → AuthArgs → Authenticated :=
  (client token).authenticate

/-- What `setup` raises where it is called, and what `ws.recv()` returns. -/
structure WSNETSSPIProxy where
  agentid : Option Bytes
  setup : Except PyErr Unit := .ok ()
  incoming : List Recv

def WSNETSSPIProxy.ask (w : WSNETSSPIProxy) (cmd : CMD) : Asked :=
  let s := sr w.agentid cmd w.incoming
  { sent := s.sent ≠ [], reply := s.result }

theorem WSNETSSPIProxy.sent_ne_nil {w : WSNETSSPIProxy} {cmd reply : CMD}
    (h : (sr w.agentid cmd w.incoming).result = some (.ok reply)) : (sr w.agentid cmd w.incoming).sent ≠ [] := by
  unfold sr at h ⊢
  split at h
  · cases h
  · unfold sr_loop
    split
    · simp
    · split <;> simp

def WSNETSSPIProxy.client (token : Bytes) : Client WSNETSSPIProxy where
  tooMany := "Too many tiers for NTLM!"
  token := token
  setup := WSNETSSPIProxy.setup
  ask := WSNETSSPIProxy.ask
  sends h := decide_eq_true (sent_ne_nil h)

def WSNETSSPIProxy.authenticate (token : Bytes) : WSNETSSPIProxy → Nat → AuthArgs → Authenticated :=
  (client token).authenticate

/-! ### One call -/

/-- An error leaves `iter` alone, success advances it by one. -/
structure Advances (iter : Nat) (r : Authenticated) : Prop where
  error : ∀ e, r.result = .tuple (.error e) → r.iter = iter
  ok : ∀ v, r.result = .tuple (.ok v) → r.iter = iter + 1

/-- A reply that is an error, or has what is read of it. -/
def Expected (reply : CMD) : Prop :=
  reply.type ∈ [CMDType.AUTHERR, .NTLMAUTHREPLY, .NTLMCHALLREPLY, .KERBEROSREPLY]

/-- If the call gets a reply at all, it is an expected one. -/
def GetsExpected (token : Bytes) (setup : Except PyErr Unit) (ask : CMD → Asked) (iter : Nat) (x : AuthArgs) : Prop :=
  ∀ cmd reply, setup = .ok () → command token iter x = some cmd → (ask cmd).reply = some (.ok reply) → Expected reply

variable {tooMany : String} {token : Bytes} {setup : Except PyErr Unit} {ask : CMD → Asked} {iter : Nat} {x : AuthArgs}
  {cmd reply : CMD} {asked : Asked}

theorem advances_error (iter : Nat) (sent : Option CMD) (e : PyErr) : Advances iter ⟨iter, sent, .tuple (.error e)⟩ :=
  ⟨fun _ _ => rfl, nofun⟩

theorem advances_ok (iter : Nat) (sent : Option CMD) (v : String × Int × Bytes) :
    Advances iter ⟨iter + 1, sent, .tuple (.ok v)⟩ :=
  ⟨nofun, fun _ _ => rfl⟩

/-- The error that comes too late. -/
theorem not_advances_error (iter : Nat) (sent : Option CMD) (e : PyErr) :
    ¬ Advances iter ⟨iter + 1, sent, .tuple (.error e)⟩ :=
  fun h => Nat.succ_ne_self iter (h.error e rfl)

/-- What is sent, and the three ways in which it ends. -/
theorem ask_one_cases (iter : Nat) (cmd : CMD) (asked : Asked) : ∃ sent, sent = (if asked.sent then some cmd else none) ∧
    ((asked.reply = none ∧ ask_one iter cmd asked = ⟨iter, sent, .waits⟩) ∨
      (∃ e, (∀ reply, asked.reply = some (.ok reply) → ∃ c, reply = .AUTHERR c) ∧
        ask_one iter cmd asked = ⟨iter, sent, .tuple (.error e)⟩) ∨
      ∃ reply, asked.reply = some (.ok reply) ∧ (∀ c, reply ≠ .AUTHERR c) ∧
        ask_one iter cmd asked = ⟨iter + 1, sent, .tuple (attributes reply)⟩) := by
  refine ⟨_, rfl, ?_⟩
  unfold ask_one
  dsimp only
  split
  · exact .inl ⟨‹_›, rfl⟩
  · exact .inr (.inl ⟨_, by simp [*], rfl⟩)
  · exact .inr (.inl ⟨_, by simp [*], rfl⟩)
  · rename_i reply hne heq
    exact .inr (.inr ⟨reply, heq, fun c hc => hne c hc, rfl⟩)

theorem expected_iff : Expected reply ↔ (∃ c, reply = .AUTHERR c) ∨ ∃ v, attributes reply = .ok v := by
  cases reply with
  | AUTHERR c | NTLMAUTHREPLY c | NTLMCHALLREPLY c | KERBEROSREPLY c => simp [Expected, CMD.type, attributes]
  | _ => exact iff_of_false (by simp [Expected, CMD.type]) (by simp [attributes])

theorem advances_ask_one_iff :
    Advances iter (ask_one iter cmd asked) ↔ ∀ reply, asked.reply = some (.ok reply) → Expected reply := by
  obtain ⟨sent, -, ⟨hr, h⟩ | ⟨e, hr, h⟩ | ⟨reply, hr, hne, h⟩⟩ := ask_one_cases iter cmd asked
  · rw [h]
    exact iff_of_true ⟨nofun, nofun⟩ (by simp [hr])
  · rw [h]
    exact iff_of_true (advances_error iter sent e) fun reply hreply => expected_iff.2 (.inl (hr reply hreply))
  · have hreply : (∀ reply', asked.reply = some (.ok reply') → Expected reply') ↔ Expected reply := by simp [hr]
    rw [h, hreply, expected_iff]
    cases ha : attributes reply with
    | ok v => exact iff_of_true (advances_ok iter sent v) (.inr ⟨v, rfl⟩)
    | error e => exact iff_of_false (not_advances_error iter sent e) (by simpa using hne)

theorem advances_iff : Advances iter (authenticate tooMany token setup ask iter x) ↔
    GetsExpected token setup ask iter x := by
  unfold authenticate
  split
  · exact iff_of_true (advances_error iter _ _) fun _ _ => nofun
  · split
    · rename_i cmd hcmd
      rw [advances_ask_one_iff]
      constructor
      · intro h cmd' reply _ hcmd'
        rw [hcmd] at hcmd'
        cases hcmd'
        exact h reply
      · exact fun h reply => h cmd reply rfl hcmd
    · exact iff_of_true ⟨nofun, nofun⟩ (by simp [GetsExpected, *])
    · exact iff_of_true (advances_error iter _ _) (by simp [GetsExpected, *])

/-! ### Calls one after another -/

/-- A call of a client in the circumstances `e.1`. -/
def authStep {ι : Type} (auth : ι → Nat → AuthArgs → Authenticated) (iter : Nat) (e : ι × AuthArgs) :
    Option (Nat × List (AuthArgs × Authenticated)) :=
  some ((auth e.1 iter e.2).iter, [(e.2, auth e.1 iter e.2)])

/-- The call has returned its three values. -/
def Authenticated.succeeded (r : Authenticated) : Bool :=
  match r.result with
  | .tuple (.ok _) => true
  | _ => false

def successes (os : List (AuthArgs × Authenticated)) : Nat := os.countP fun o => o.2.succeeded

/-- An NTLM challenge is sent when one call has succeeded so far, and this call has sent the first NTLM message unless
it was for Kerberos. -/
def ChallengesLater (os : List (AuthArgs × Authenticated)) : Prop :=
  ∀ os₁ o os₂ c, os = os₁ ++ o :: os₂ → o.2.sent = some (.NTLMCHALL c) → successes os₁ = 1 ∧
    ∃ p ∈ os₁, p.2.succeeded = true ∧ (p.1.auth_type = .KERBEROS ∨ ∃ c, p.2.sent = some (.NTLMAUTH c))

namespace Client
variable {ι : Type} {c : Client ι} {w : ι} {os : List (AuthArgs × Authenticated)}

theorem iter_ask_one (h : ∀ r, (ask_one iter cmd asked).result ≠ .tuple r) : (ask_one iter cmd asked).iter = iter := by
  obtain ⟨sent, -, ⟨-, heq⟩ | ⟨e, -, heq⟩ | ⟨reply, -, -, heq⟩⟩ := ask_one_cases iter cmd asked
  · rw [heq]
  · exact absurd (by rw [heq]) (h _)
  · exact absurd (by rw [heq]) (h _)

/-- `iter` moves with the successes. -/
theorem iter_authenticate (h : Advances iter (c.authenticate w iter x)) :
    (c.authenticate w iter x).iter = iter + (c.authenticate w iter x).succeeded.toNat := by
  cases hr : (c.authenticate w iter x).result with
  | tuple r =>
    cases r with
    | error e => simp [Authenticated.succeeded, hr, h.error e hr]
    | ok v => simp [Authenticated.succeeded, hr, h.ok v hr]
  | waits | none =>
    simp only [Authenticated.succeeded, hr, Bool.toNat_false, Nat.add_zero]
    revert hr
    unfold Client.authenticate Operator.authenticate
    split
    · exact fun _ => rfl
    · split
      · exact fun hr => iter_ask_one fun r hr' => by rw [hr] at hr'; cases hr'
      · exact fun _ => rfl
      · exact fun _ => rfl

/-- What a call sends is its command, and a call that succeeds has sent it. -/
theorem sent_ask_one (hw : ∀ reply, asked.reply = some (.ok reply) → asked.sent = true) :
    (∀ cmd', (ask_one iter cmd asked).sent = some cmd' → cmd' = cmd) ∧
      ((ask_one iter cmd asked).succeeded = true → (ask_one iter cmd asked).sent = some cmd) := by
  obtain ⟨sent, hsent, hcases⟩ := ask_one_cases iter cmd asked
  have hcmd : ∀ cmd', sent = some cmd' → cmd' = cmd := by
    intro cmd' h
    rw [hsent] at h
    split at h <;> cases h
    rfl
  rcases hcases with ⟨-, h⟩ | ⟨e, -, h⟩ | ⟨reply, hr, -, h⟩
  · rw [h]
    exact ⟨hcmd, nofun⟩
  · rw [h]
    exact ⟨hcmd, nofun⟩
  · rw [h]
    exact ⟨hcmd, fun _ => by rw [hsent, hw reply hr]; rfl⟩

theorem sent_authenticate :
    (∀ cmd, (c.authenticate w iter x).sent = some cmd → command c.token iter x = some cmd) ∧
      ((c.authenticate w iter x).succeeded = true → ∃ cmd, command c.token iter x = some cmd ∧
        (c.authenticate w iter x).sent = some cmd) := by
  unfold Client.authenticate Operator.authenticate
  split
  · exact ⟨fun _ h => (by cases h), fun h => (by cases h)⟩
  · split
    · rename_i cmd hcmd
      obtain ⟨h₁, h₂⟩ : (∀ cmd', (ask_one iter cmd (c.ask w cmd)).sent = some cmd' → cmd' = cmd) ∧
          ((ask_one iter cmd (c.ask w cmd)).succeeded = true → (ask_one iter cmd (c.ask w cmd)).sent = some cmd) :=
        sent_ask_one fun reply hr => c.sends hr
      exact ⟨fun cmd' h => by rw [h₁ cmd' h, hcmd], fun h => ⟨cmd, hcmd, h₂ h⟩⟩
    · exact ⟨fun _ h => (by cases h), fun h => (by cases h)⟩
    · exact ⟨fun _ h => (by cases h), fun h => (by cases h)⟩

/-- `iter` counts the successful calls, and each call saw the count so far. -/
structure Counts (c : Client ι) (iter : Nat) (os : List (AuthArgs × Authenticated)) : Prop where
  iter : iter = successes os
  calls : ∀ os₁ o os₂, os = os₁ ++ o :: os₂ → ∃ w, o.2 = c.authenticate w (successes os₁) o.1

theorem Counts.step (hp : Counts c iter os) (h : Advances iter (c.authenticate w iter x)) :
    Counts c (c.authenticate w iter x).iter (os ++ [(x, c.authenticate w iter x)]) := by
  refine ⟨?_, fun os₁ o os₂ heq => ?_⟩
  · rw [iter_authenticate h, successes, List.countP_append, List.countP_singleton, hp.iter]
    cases (c.authenticate w (successes os) x).succeeded <;> rfl
  · rcases split_concat heq with ⟨rfl, rfl⟩ | ⟨os₂', heq⟩
    · exact ⟨w, by rw [hp.iter]⟩
    · exact hp.calls os₁ o os₂' heq

theorem command_eq_NTLMCHALL {m : WSNNTLMChallenge} (h : command token iter x = some (.NTLMCHALL m)) : iter = 1 := by
  unfold command at h
  split at h
  · cases h
  · split_ifs at h
    · cases h
    · assumption
  · cases h

theorem command_zero (h : command token 0 x = some cmd) : x.auth_type = .KERBEROS ∨ ∃ m, cmd = .NTLMAUTH m := by
  unfold command at h
  split at h
  · exact .inl ‹_›
  · cases h
    exact .inr ⟨_, rfl⟩
  · cases h

theorem Counts.challengesLater (hp : Counts c iter os) : ChallengesLater os := by
  intro os₁ o os₂ m heq hm
  obtain ⟨w, hw⟩ := hp.calls os₁ o os₂ heq
  have hone : successes os₁ = 1 := command_eq_NTLMCHALL (sent_authenticate.1 _ (hw ▸ hm))
  refine ⟨hone, ?_⟩
  have hpos : 0 < os₁.countP fun o => o.2.succeeded := by
    show 0 < successes os₁
    omega
  obtain ⟨p, hmem, hsucc⟩ := List.countP_pos_iff.1 hpos
  refine ⟨p, hmem, hsucc, ?_⟩
  -- no call has succeeded before this one
  obtain ⟨l₁, l₂, rfl⟩ := List.append_of_mem hmem
  have hzero : successes l₁ = 0 := by
    rw [successes, List.countP_append, List.countP_cons, if_pos hsucc] at hone
    show l₁.countP _ = 0
    omega
  obtain ⟨w', hw'⟩ := hp.calls l₁ p (l₂ ++ o :: os₂) (by rw [heq, List.append_assoc, List.cons_append])
  rw [hzero] at hw'
  obtain ⟨cmd, hcmd, hsent⟩ := sent_authenticate.2 (hw' ▸ hsucc)
  exact (command_zero hcmd).imp id fun ⟨m, hm⟩ => ⟨m, by rw [hw', hsent, hm]⟩

end Client

/-- A call advances `iter` as it should just when `met`, and where all calls meet it challenges are sent later. -/
def Keeps {ι : Type} (auth : ι → Nat → AuthArgs → Authenticated) (met : ι → Nat → AuthArgs → Prop) : Prop :=
  (∀ w iter x, Advances iter (auth w iter x) ↔ met w iter x) ∧
    ∀ es iter os, Run (authStep auth) 0 es iter os → StepsMeet (authStep auth) (fun iter e => met e.1 iter e.2) 0 es →
      ChallengesLater os

theorem Client.keeps {ι : Type} (c : Client ι) :
    Keeps c.authenticate fun w => GetsExpected c.token (c.setup w) (c.ask w) := by
  refine ⟨fun w iter x => advances_iff, fun es iter os h hmeet => ?_⟩
  have hp : Client.Counts c iter os := by
    refine h.invariant_where hmeet (fun {iter iter' e o os} hmet hp hs => ?_) ⟨rfl, by simp⟩
    cases hs
    exact hp.step (advances_iff.2 hmet)
  exact hp.challengesLater

/-- In each of the three classes a failed step leaves `iter` alone, and a successful one advances it, if and only if a
reply that comes is an error or has the attributes. -/
theorem authenticate_keeps (token : Bytes) :
    (Keeps (WSNETAuth.authenticate token) fun w => GetsExpected token (.ok ()) w.ask) ∧
      (Keeps (WSNETDirectAuth.authenticate token) fun w => GetsExpected token (.ok ()) w.ask) ∧
      Keeps (WSNETSSPIProxy.authenticate token) fun w => GetsExpected token w.setup w.ask :=
  ⟨(WSNETAuth.client token).keeps, (WSNETDirectAuth.client token).keeps, (WSNETSSPIProxy.client token).keeps⟩

/-- The first NTLM message and the challenge, both answered. -/
def challengeCalls : List (WSNETDirectAuth × AuthArgs) :=
  [({ internal_in_q := [.ok (.NTLMAUTHREPLY ⟨proxyToken, "CONTINUE", 3, [1, 2]⟩)] }, ⟨.NTLM, "", "", 3, 0, []⟩),
    ({ internal_in_q := [.ok (.NTLMCHALLREPLY ⟨proxyToken, "OK", 3, [4]⟩)] }, ⟨.NTLM, "", "", 3, 0, [3]⟩)]

theorem authenticate_keeps_challenge : ∃ iter os c,
    Run (authStep (WSNETDirectAuth.authenticate proxyToken)) 0 challengeCalls iter os ∧ iter = 2 ∧
      os[1]?.bind (·.2.sent) = some (.NTLMCHALL c) ∧ ChallengesLater os := by
  have hmet : ∀ {reply : CMD} {iter : Nat} {x : AuthArgs}, Expected reply →
      GetsExpected proxyToken (.ok ()) (WSNETDirectAuth.ask { internal_in_q := [.ok reply] }) iter x := by
    intro reply iter x hreply cmd reply' _ _ hr
    simp only [WSNETDirectAuth.ask, send_and_get, List.head?_cons] at hr
    split at hr
    · cases hr
    · cases hr
    · cases hr
      exact hreply
  have h : Run (authStep (WSNETDirectAuth.authenticate proxyToken)) 0 challengeCalls _ _ := .of_exec rfl
  exact ⟨_, _, _, h, rfl, rfl, (authenticate_keeps proxyToken).2.1.2 _ _ _ h
    (.cons (hmet (by simp [Expected, CMD.type])) rfl (.cons (hmet (by simp [Expected, CMD.type])) rfl .nil))⟩

/-! ### An answer without the attributes -/

def errFrame : Bytes := [0, 0, 0, 32, 0, 1] ++ proxyToken ++ [0, 0, 0, 2, 110, 111, 0, 0, 0, 0]

def ntlmArgs : AuthArgs := ⟨.NTLM, "", "", 3, 0, []⟩

/-- The agent answers the first NTLM message with an ERR: the call fails and advances `iter`, and the next call sends the
challenge message. -/
theorem not_keeps_err : ¬ Advances 0 (WSNETAuth.authenticate proxyToken { internal_in_q := [errFrame] } 0 ntlmArgs) ∧
    ∃ iter os, Run (authStep (WSNETAuth.authenticate proxyToken)) 0
      [({ internal_in_q := [errFrame] }, ntlmArgs), ({ internal_in_q := [] }, ntlmArgs)] iter os ∧
        ¬ ChallengesLater os := by
  refine ⟨fun h => absurd (h.error _ rfl) (by decide), _, _, .of_exec rfl, fun h => ?_⟩
  obtain ⟨hone, -⟩ := h [_] _ [] _ rfl rfl
  revert hone
  decide

end Operator

end Wsnet
