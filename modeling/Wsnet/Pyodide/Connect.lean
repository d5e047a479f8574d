import Wsnet.Pyodide.Handshake

/-!
# Opening a connection

`connect` asks the agent for the connection and, given an SSL context, runs the handshake; it returns a pair
of a success flag and an error, which `create_connection` raises. `do_handshake` turns every exception into
an empty byte string, and a closed connection ends its loop like success does: `connect` goes on in both
cases and reports success (`connect_truthful_iff`).
-/

namespace Wsnet.Pyodide.WSNETConnection

/-- The fields of a `WSNETConnection` that `connect` uses. -/
structure Config where
  token : Bytes
  host : String
  port : Int
  /-- an SSL context was given -/
  ssl_ctx : Bool := false
  deriving DecidableEq, Repr

/-- What `connect` meets outside of this program: whether the websocket opens within its ten seconds, the
messages of the agent, and the TLS object, which may fail to be made. -/
structure Env where
  opening : Except PyErr Unit := .ok ()
  q : Inbox := []
  wrap_bio : Except PyErr Unit := .ok ()
  calls : List TlsCall := []

/-- `do_handshake`, from the message behind the first reply on. -/
def do_handshake (token : Bytes) (env : Env) (disconnected : Bool) (q : Inbox) : HandshakeEnd :=
  match env.wrap_bio with
  | .error e => .failed e
  | .ok () => handshake_loop { token, disconnected, q } env.calls

/-- What the first reply raises. -/
def replyError : CMD → Option PyErr
  | .CONTINUE _ => none
  | .ERR c => some (.exception ("Connection failed, proxy sent error. Err: " ++ c.reason))
  | c => some (.exception ("Connection failed, expected CONTINUE, got " ++ pyStr c.type.value))

/-- `connect`: the pair it returns, if it does. -/
def connect (c : Config) (env : Env) : Option (Bool × Option PyErr) :=
  match env.opening with
  | .error e => some (false, some e)
  | .ok () =>
    match (CMD.CONNECT { token := c.token, protocol := "TCP", ip := c.host, port := c.port }).toBytes with
    | .error e => some (false, some e)
    | .ok _ =>
      match env.q with
      | [] => none
      | (raw, disconnected) :: q =>
        match CMD.fromBytes raw with
        | .error e => some (false, some e)
        | .ok reply =>
          match replyError reply with
          | some e => some (false, some e)
          | none =>
            if c.ssl_ctx then (do_handshake c.token env disconnected q).value.map fun _ => (true, none)
            else some (true, none)

/-- `create_connection`, from the new connection object on: it raises, or returns a transport. -/
def create_connection (c : Config) (env : Env) : Option (Except PyErr Unit) :=
  (connect c env).map fun r =>
    match r.2 with
    | some e => .error e
    | none => .ok ()

/-- The first reply is `CONTINUE`: the messages behind it. -/
def Continued (c : Config) (env : Env) (disconnected : Bool) (q : Inbox) : Prop :=
  env.opening = .ok () ∧
    (∃ frame, (CMD.CONNECT { token := c.token, protocol := "TCP", ip := c.host, port := c.port }).toBytes = .ok frame) ∧
    ∃ raw reply, env.q = (raw, disconnected) :: q ∧ CMD.fromBytes raw = .ok (.CONTINUE reply)

/-- The handshake comes to nothing: the connection is closed, the TLS object raises, or the bytes it waits for
are not there as a record. -/
inductive HandshakeFails : Handshake → List TlsCall → Prop
  | disconnected {s : Handshake} {calls : List TlsCall} : s.disconnected = true → HandshakeFails s calls
  | raises {s : Handshake} {calls : List TlsCall} (e : PyErr) : HandshakeFails s (.raises e :: calls)
  | unsent {s : Handshake} {calls : List TlsCall} {out : Bytes} {e : PyErr} :
      (s.put out).flush = .error e → HandshakeFails s (.done out :: calls)
  | noRecord {s : Handshake} {calls : List TlsCall} {out : Bytes} {e : PyErr} :
      (s.put out).want_read = .raises e → HandshakeFails s (.wantRead out :: calls)
  | later {s s' : Handshake} {calls : List TlsCall} {out : Bytes} :
      (s.put out).want_read = .continues s' → HandshakeFails s' calls →
        HandshakeFails s (.wantRead out :: calls)

theorem handshake_loop_fails_iff {s : Handshake} {calls : List TlsCall} :
    HandshakeFails s calls ↔ (∃ s', handshake_loop s calls = .disconnected s') ∨
      ∃ e, handshake_loop s calls = .failed e := by
  constructor
  · intro h
    induction h with
    | @disconnected s calls hd => exact .inl ⟨s, by cases calls <;> simp [handshake_loop, hd]⟩
    | @raises s calls e =>
      by_cases hd : s.disconnected = true
      · exact .inl ⟨s, by simp [handshake_loop, hd]⟩
      · exact .inr ⟨e, by simp [handshake_loop, hd]⟩
    | @unsent s calls out e hflush =>
      by_cases hd : s.disconnected = true
      · exact .inl ⟨s, by simp [handshake_loop, hd]⟩
      · exact .inr ⟨e, by simp [handshake_loop, hd, hflush]⟩
    | @noRecord s calls out e hround =>
      by_cases hd : s.disconnected = true
      · exact .inl ⟨s, by simp [handshake_loop, hd]⟩
      · exact .inr ⟨e, by simp [handshake_loop, hd, hround]⟩
    | @later s s' calls out hround _ ih =>
      by_cases hd : s.disconnected = true
      · exact .inl ⟨s, by simp [handshake_loop, hd]⟩
      · simpa [handshake_loop, hd, hround] using ih
  · intro h
    induction calls generalizing s with
    | nil =>
      by_cases hd : s.disconnected = true
      · exact .disconnected hd
      · simp [handshake_loop, hd] at h
    | cons call calls ih =>
      by_cases hd : s.disconnected = true
      · exact .disconnected hd
      · cases call with
        | raises e => exact .raises e
        | done out =>
          cases hflush : (s.put out).flush with
          | error e => exact .unsent hflush
          | ok s' => simp [handshake_loop, hd, hflush] at h
        | wantRead out =>
          cases hround : (s.put out).want_read with
          | waits => simp [handshake_loop, hd, hround] at h
          | raises e => exact .noRecord hround
          | continues s' => exact .later hround (ih (by simpa [handshake_loop, hd, hround] using h))

section Connect
variable {c : Config} {env : Env} {d : Bool} {q : Inbox}

theorem Continued.unique {d' : Bool} {q' : Inbox} (h : Continued c env d q) (h' : Continued c env d' q') :
    d' = d ∧ q' = q := by
  obtain ⟨-, -, raw, reply, hq, -⟩ := h
  obtain ⟨-, -, raw', reply', hq', -⟩ := h'
  rw [hq] at hq'
  simp only [List.cons.injEq, Prod.mk.injEq] at hq'
  exact ⟨hq'.1.2.symm, hq'.2.symm⟩

theorem connect_of_continued (h : Continued c env d q) : connect c env =
    if c.ssl_ctx then (do_handshake c.token env d q).value.map fun _ => (true, none) else some (true, none) := by
  obtain ⟨hopen, ⟨frame, hframe⟩, raw, reply, hq, hraw⟩ := h
  simp only [connect, hopen, hframe, hq, hraw, replyError]

/-- Before the first `CONTINUE` every exception comes out as it should. -/
theorem connect_of_not_continued (h : ∀ d q, ¬ Continued c env d q) :
    connect c env = none ∨ ∃ e, connect c env = some (false, some e) := by
  cases hopen : env.opening with
  | error e => exact .inr ⟨e, by simp only [connect, hopen]⟩
  | ok u =>
    cases hframe : (CMD.CONNECT { token := c.token, protocol := "TCP", ip := c.host, port := c.port }).toBytes with
    | error e => exact .inr ⟨e, by simp only [connect, hopen, hframe]⟩
    | ok frame =>
      rcases hq : env.q with _ | ⟨⟨raw, d⟩, q⟩
      · exact .inl (by simp only [connect, hopen, hframe, hq])
      · cases hraw : CMD.fromBytes raw with
        | error e => exact .inr ⟨e, by simp only [connect, hopen, hframe, hq, hraw]⟩
        | ok reply =>
          cases hreply : replyError reply with
          | some e => exact .inr ⟨e, by simp only [connect, hopen, hframe, hq, hraw, hreply]⟩
          | none =>
            have hcont : ∃ c', reply = .CONTINUE c' := by
              cases reply with
              | CONTINUE c' => exact ⟨c', rfl⟩
              | _ => cases hreply
            obtain ⟨c', rfl⟩ := hcont
            exact absurd ⟨hopen, ⟨frame, hframe⟩, raw, c', hq, hraw⟩ (h d q)

theorem do_handshake_fails_iff (token : Bytes) :
    ((∃ e, env.wrap_bio = .error e) ∨ HandshakeFails { token, disconnected := d, q } env.calls) ↔
    (∃ s, do_handshake token env d q = .disconnected s) ∨ ∃ e, do_handshake token env d q = .failed e := by
  rw [handshake_loop_fails_iff]
  unfold do_handshake
  cases env.wrap_bio with
  | error e => exact iff_of_true (.inl ⟨e, rfl⟩) (.inr ⟨e, rfl⟩)
  | ok u => simp

/-- What `connect` returns is true: success only behind a `CONTINUE` and, with an SSL context, a completed
handshake; an error, which `create_connection` raises, otherwise. -/
def Truthful (c : Config) (env : Env) : Prop :=
  ∀ r, connect c env = some r →
    (r = (true, none) ∧ ∃ d q, Continued c env d q ∧
    (c.ssl_ctx = true → ∃ s, do_handshake c.token env d q = .completed s)) ∨
      ∃ e, r = (false, some e) ∧ create_connection c env = some (.error e)

/-- A success that is true is that of a completed handshake. -/
theorem completed_of_truthful (h : Truthful c env) (hc : Continued c env d q) (hssl : c.ssl_ctx = true)
    (hconnect : connect c env = some (true, none)) : ∃ s, do_handshake c.token env d q = .completed s := by
  obtain ⟨-, d', q', hc', hs⟩ | ⟨e, he, -⟩ := h (true, none) hconnect
  · obtain ⟨rfl, rfl⟩ := hc.unique hc'
    exact hs hssl
  · cases he

theorem connect_truthful_iff (c : Config) (env : Env) : Truthful c env ↔
    ¬ (c.ssl_ctx = true ∧ ∃ d q, Continued c env d q ∧
      ((∃ e, env.wrap_bio = .error e) ∨ HandshakeFails { token := c.token, disconnected := d, q } env.calls)) := by
  by_cases hcont : ∃ d q, Continued c env d q
  · obtain ⟨d, q, hc⟩ := hcont
    have hconnect := connect_of_continued hc
    by_cases hssl : c.ssl_ctx = true
    · rw [if_pos hssl] at hconnect
      have hfails : (∃ d q, Continued c env d q ∧ ((∃ e, env.wrap_bio = .error e) ∨
            HandshakeFails { token := c.token, disconnected := d, q } env.calls)) ↔
          (∃ s, do_handshake c.token env d q = .disconnected s) ∨ ∃ e, do_handshake c.token env d q = .failed e := by
        rw [← do_handshake_fails_iff]
        constructor
        · rintro ⟨d', q', hc', h⟩
          obtain ⟨rfl, rfl⟩ := hc.unique hc'
          exact h
        · exact fun h => ⟨d, q, hc, h⟩
      rw [and_iff_right hssl, hfails]
      cases hend : do_handshake c.token env d q with
      | waits =>
        rw [hend] at hconnect
        refine iff_of_true (fun r hr => ?_) (by simp)
        rw [hconnect] at hr
        cases hr
      | completed s =>
        rw [hend] at hconnect
        refine iff_of_true (fun r hr => ?_) (by simp)
        rw [hconnect] at hr
        exact .inl ⟨(Option.some.inj hr).symm, d, q, hc, fun _ => ⟨s, hend⟩⟩
      | disconnected s =>
        rw [hend] at hconnect
        refine iff_of_false (fun h => ?_) (not_not.2 (.inl ⟨s, rfl⟩))
        obtain ⟨s', hs'⟩ := completed_of_truthful h hc hssl hconnect
        rw [hend] at hs'
        cases hs'
      | failed e =>
        rw [hend] at hconnect
        refine iff_of_false (fun h => ?_) (not_not.2 (.inr ⟨e, rfl⟩))
        obtain ⟨s', hs'⟩ := completed_of_truthful h hc hssl hconnect
        rw [hend] at hs'
        cases hs'
    · rw [if_neg hssl] at hconnect
      refine iff_of_true (fun r hr => ?_) (fun h => hssl h.1)
      rw [hconnect] at hr
      exact .inl ⟨(Option.some.inj hr).symm, d, q, hc, fun h => absurd h hssl⟩
  · refine iff_of_true (fun r hr => ?_) (fun ⟨_, d, q, hc, _⟩ => hcont ⟨d, q, hc⟩)
    have hcreate : create_connection c env = (connect c env).map _ := rfl
    rcases connect_of_not_continued (fun d q hc => hcont ⟨d, q, hc⟩) with hnone | ⟨e, he⟩
    · rw [hnone] at hr
      cases hr
    · rw [he] at hr
      exact .inr ⟨e, (Option.some.inj hr).symm, by rw [hcreate, he]; rfl⟩

end Connect

/-- The agent connects, and the TLS object raises. -/
def badCertificate : Env where
  q := [([0, 0, 0, 26, 0, 4] ++ List.replicate 16 0 ++ [0, 0, 0, 0], false)]
  calls := [.raises (.exception "CERTIFICATE_VERIFY_FAILED")]

theorem not_truthful_badCertificate :
    ¬ Truthful { token := List.replicate 16 0, host := "10.0.0.1", port := 443, ssl_ctx := true } badCertificate := by
  intro h
  have hconnect : connect { token := List.replicate 16 0, host := "10.0.0.1", port := 443, ssl_ctx := true }
    badCertificate =
      some (true, none) := by rfl
  obtain ⟨-, d, q, hc, hs⟩ | ⟨e, he, -⟩ := h _ hconnect
  · obtain ⟨s, hs⟩ := hs rfl
    obtain ⟨-, -, raw, reply, hq, -⟩ := hc
    cases hq
    cases hs
  · cases he

end Wsnet.Pyodide.WSNETConnection
