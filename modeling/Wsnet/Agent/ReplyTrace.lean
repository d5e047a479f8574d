import Wsnet.Agent.TcpClient

/-!
# The replies of a TCP client session

`ReplyTrace` is the shape that the messages of a session should have: a lone `ERR`, or `CONTINUE`,
the data, and at most one terminal message. Every terminal message but those of a failed write is
sent on the way of `socket_connect` to its end, which it takes once (`terminals_eq`). A failed write
is reported by `__socket_data_in_handle`, and `socket_connect` ends with a report of its own, so a
session that is over has sent one terminal message exactly when no write failed.
-/

namespace Wsnet

/-- `OK` or `ERR`. -/
def CMD.isTerminal (c : CMD) : Bool := c.type = .OK ∨ c.type = .ERR

@[simp] theorem isTerminal_okReply (t : Bytes) : (okReply t).isTerminal = true := rfl
@[simp] theorem isTerminal_continueReply (t : Bytes) : (continueReply t).isTerminal = false := rfl
@[simp] theorem isTerminal_errReply (f : Bool) (t : Bytes) (r e : String) : (errReply f t r e).isTerminal = true := rfl
@[simp] theorem isTerminal_SD (c : WSNSocketData) : (CMD.SD c).isTerminal = false := rfl

/-- `CONTINUE` and the data in order. -/
def streamReplies (token : Bytes) (ds : List Bytes) : List CMD :=
  continueReply token :: ds.map fun d => .SD ⟨token, d⟩

/-- The messages of a session in the order they are sent: nothing yet, a lone `ERR`, or `CONTINUE`, `SD`s
and at most one terminal message, all with the token of the session. -/
inductive ReplyTrace (token : Bytes) : List CMD → Prop
  | nothing : ReplyTrace token []
  | refused (m : CMD) (ht : m.token = token) (hm : m.type = .ERR) : ReplyTrace token [m]
  | running (ds : List Bytes) : ReplyTrace token (streamReplies token ds)
  | ended (ds : List Bytes) (m : CMD) (ht : m.token = token) (hm : m.isTerminal) :
    ReplyTrace token (streamReplies token ds ++ [m])

@[simp] theorem countP_streamReplies (token : Bytes) (ds : List Bytes) :
    (streamReplies token ds).countP CMD.isTerminal = 0 := by
  simp [streamReplies, List.countP_eq_zero]

theorem streamReplies_snoc (token : Bytes) (ds : List Bytes) (d : Bytes) :
    streamReplies token ds ++ [.SD ⟨token, d⟩] = streamReplies token (ds ++ [d]) := by
  simp [streamReplies]

theorem ReplyTrace.countP_le_one {token : Bytes} {ms : List CMD} (h : ReplyTrace token ms) :
    ms.countP CMD.isTerminal ≤ 1 := by
  cases h with
  | nothing => simp
  | refused m => exact List.countP_le_length
  | running ds => simp
  | ended ds m => rw [List.countP_append, countP_streamReplies, Nat.zero_add]; exact List.countP_le_length

namespace TcpClient

/-- A call of `transport.send` raises. -/
def Event.isSendFailed : Event → Bool
  | .main (.sendFailed _) => true
  | .dataIn .sendFailed => true
  | _ => false

/-- `writer.write` or `writer.drain` raises. -/
def Event.isWriteFailed : Event → Bool
  | .dataIn (.writeFailed _) => true
  | _ => false

/-- `socket_connect` has its last message under way or is over. -/
def Main.isEnding : Main → Bool
  | .sendingOk | .sendingErr | .done => true
  | _ => false

/-- The session has just received its `CONNECT`. -/
def start (token : Bytes) (full : Bool) : TcpClient := { token, full }

/-- Both tasks are over. -/
def Ended (s : TcpClient) : Prop := s.main = .done ∧ (s.dataIn = .none ∨ s.dataIn = .done)

instance (s : TcpClient) : Decidable s.Ended := by unfold Ended; infer_instance

variable {s s' : TcpClient} {e : Event} {es : List Event} {o os : List Effect} {token : Bytes} {full : Bool}

/-- Each terminal message is the last one of `socket_connect` or reports a failed write. -/
theorem terminals_step (hA : e.isSendFailed = false)
    (hp : (messages os).countP CMD.isTerminal = s.main.isEnding.toNat + es.countP Event.isWriteFailed)
    (h : s.step e = some (s', o)) : (messages (os ++ o)).countP CMD.isTerminal =
      s'.main.isEnding.toNat + (es ++ [e]).countP Event.isWriteFailed := by
  rw [messages_append, List.countP_append, List.countP_append, hp]
  cases e with
  | put c => cases h; rfl
  | main e =>
    cases mainStep_of_step h with
    | sendFailed exc | sendFailedLast exc => cases hA
    | sentLast hm | sent hm => rcases hm with hm | hm <;> simp [hm, finish, Main.isEnding, Event.isWriteFailed]
    | opened hm | openFailed exc hm | wake hm | readEof hm | read data hm | readFailed exc hm =>
      simp [hm, messages, fail, Main.isEnding, Event.isWriteFailed, Nat.add_comm]
  | dataIn e =>
    cases dataInStep_of_step h with
    | sent e he =>
      rcases he with rfl | rfl
      · simp [finishDataIn, messages, Event.isWriteFailed]
      · cases hA
    | _ => simp [finishDataIn, messages, Event.isWriteFailed, Nat.add_assoc]

theorem terminals_eq (h : Run step (start token full) es s os) (hA : ∀ e ∈ es, e.isSendFailed = false) :
    (messages os).countP CMD.isTerminal = s.main.isEnding.toNat + es.countP Event.isWriteFailed :=
  h.history_invariant_of
    (P := fun es s os => (messages os).countP CMD.isTerminal = s.main.isEnding.toNat + es.countP Event.isWriteFailed)
    (fun ha hp hs => terminals_step ha hp hs) hA rfl

/-- Where `socket_connect` is in the trace, as long as no write fails. -/
structure TraceInv (token : Bytes) (s : TcpClient) (os : List Effect) : Prop where
  tok : s.token = token
  dataIn : s.dataIn ≠ .sendingErr
  opening : s.main = .opening → messages os = []
  running : s.main ≠ .opening → s.main.isEnding = false → ∃ ds, messages os = streamReplies token ds
  ending : s.main.isEnding = true → ReplyTrace token (messages os)

theorem TraceInv.replyTrace (hp : TraceInv token s os) : ReplyTrace token (messages os) := by
  by_cases ho : s.main = .opening
  · rw [hp.opening ho]; exact .nothing
  · cases he : s.main.isEnding with
    | true => exact hp.ending he
    | false => obtain ⟨ds, hds⟩ := hp.running ho he; rw [hds]; exact .running ds

theorem TraceInv.step (hA : e.isSendFailed = false ∧ e.isWriteFailed = false) (hp : TraceInv token s os)
    (h : s.step e = some (s', o)) : TraceInv token s' (os ++ o) := by
  have ht : s'.token = token := (token_of_step h).trans hp.tok
  cases e with
  | put c =>
    cases h
    rw [List.append_nil]
    exact ⟨ht, hp.dataIn, hp.opening, hp.running, hp.ending⟩
  | main e =>
    -- the cases that stay in the stream, and the cases that send the last message
    cases mainStep_of_step h with
    | sendFailed exc | sendFailedLast exc => cases hA.1
    | opened hm =>
      refine ⟨ht, nofun, nofun, fun _ _ => ⟨[], ?_⟩, nofun⟩
      rw [messages_append, hp.opening hm, ← hp.tok]
      rfl
    | openFailed exc hm =>
      refine ⟨ht, hp.dataIn, nofun, nofun, fun _ => ?_⟩
      rw [messages_append, hp.opening hm, ← hp.tok]
      exact .refused _ rfl rfl
    | sent hm =>
      refine ⟨ht, hp.dataIn, nofun, fun _ _ => ?_, nofun⟩
      rw [List.append_nil]
      rcases hm with hm | hm <;> exact hp.running (by simp [hm]) (by simp [hm, Main.isEnding])
    | sentLast hm =>
      refine ⟨ht, hp.dataIn, nofun, nofun, fun _ => ?_⟩
      rw [finish, List.append_nil]
      rcases hm with hm | hm <;> exact hp.ending (by simp [hm, Main.isEnding])
    | wake hm =>
      refine ⟨ht, hp.dataIn, nofun, fun _ _ => ?_, nofun⟩
      rw [List.append_nil]
      exact hp.running (by simp [hm]) (by simp [hm, Main.isEnding])
    | read data hm =>
      refine ⟨ht, hp.dataIn, nofun, fun _ _ => ?_, nofun⟩
      obtain ⟨ds, hds⟩ := hp.running (by simp [hm]) (by simp [hm, Main.isEnding])
      exact ⟨ds ++ [data], by rw [messages_append, hds, ← streamReplies_snoc, ← hp.tok]; rfl⟩
    | readEof hm | readFailed exc hm =>
      refine ⟨ht, hp.dataIn, nofun, nofun, fun _ => ?_⟩
      obtain ⟨ds, hds⟩ := hp.running (by simp [hm]) (by simp [hm, Main.isEnding])
      rw [messages_append, hds]
      exact .ended ds _ hp.tok rfl
  | dataIn e =>
    have hms : messages (os ++ o) = messages os ∧ s'.main = s.main ∧ s'.dataIn ≠ .sendingErr := by
      cases dataInStep_of_step h with
      | writeFailed exc => cases hA.2
      | sent e he hc hd => exact absurd hd hp.dataIn
      | gotOther c inQ hc hd => exact ⟨by simp, rfl, hp.dataIn⟩
      | _ => exact ⟨by simp [finishDataIn, messages], rfl, nofun⟩
    exact ⟨ht, hms.2.2, by rw [hms.1, hms.2.1]; exact hp.opening, by rw [hms.1, hms.2.1]; exact hp.running,
      by rw [hms.1, hms.2.1]; exact hp.ending⟩

theorem TraceInv.start (token : Bytes) (full : Bool) : TraceInv token (TcpClient.start token full) [] :=
  ⟨rfl, nofun, fun _ => rfl, fun h => absurd rfl h, nofun⟩

/-- Without a failed write the messages of the two tasks form a reply trace; and of the sessions that are
over, those without a failed write are the ones whose trace is in shape with one terminal message. -/
theorem replyTrace_iff (h : Run step (start token full) es s os) (hsend : ∀ e ∈ es, e.isSendFailed = false) :
    ((∀ e ∈ es, e.isWriteFailed = false) → ReplyTrace token (messages os)) ∧
      (s.Ended → ((ReplyTrace token (messages os) ∧ (messages os).countP CMD.isTerminal = 1) ↔
        ∀ e ∈ es, e.isWriteFailed = false)) := by
  have htrace : (∀ e ∈ es, e.isWriteFailed = false) → ReplyTrace token (messages os) := fun hw =>
    (h.invariant_of (P := TraceInv token) (fun ha hp hs => hp.step ha hs) (fun e he => ⟨hsend e he, hw e he⟩)
    (.start token full)).replyTrace
  refine ⟨htrace, fun hend => ?_⟩
  have hcount := terminals_eq h hsend
  have hmain : s.main.isEnding.toNat = 1 := by rw [hend.1]; rfl
  have hzero : es.countP Event.isWriteFailed = 0 ↔ ∀ e ∈ es, e.isWriteFailed = false := by simp
  rw [← hzero]
  constructor
  · rintro ⟨-, h1⟩
    omega
  · intro h0
    exact ⟨htrace (hzero.1 h0), by omega⟩

/-- A session whose peer closes at once. -/
def eofRun : List Event :=
  [.main .opened, .main .sent, .dataIn .start, .main .wake, .main (.read []), .main .sent, .dataIn .cancel]

theorem replyTrace_eofRun : ∃ s os, Run step (start (List.replicate 16 5) true) eofRun s os ∧ s.Ended ∧
    ((∀ e ∈ eofRun, e.isWriteFailed = false) → ReplyTrace (List.replicate 16 5) (messages os)) ∧
      (s.Ended → ((ReplyTrace (List.replicate 16 5) (messages os) ∧ (messages os).countP CMD.isTerminal = 1) ↔
        ∀ e ∈ eofRun, e.isWriteFailed = false)) :=
  have h : Run step (start (List.replicate 16 5) true) eofRun _ _ := .of_exec rfl
  ⟨_, _, h, by decide, replyTrace_iff h (by decide)⟩

/-- A session whose peer resets the connection while a byte for it is written. -/
def resetRun : List Event :=
  [.main .opened, .main .sent, .dataIn .start, .main .wake, .put (.SD ⟨List.replicate 16 5, [1]⟩), .dataIn .got,
    .dataIn .wake, .dataIn (.writeFailed "Connection lost"), .dataIn .sent, .main (.read []), .main .sent]

theorem not_replyTrace_resetRun : (∀ e ∈ resetRun, e.isSendFailed = false) ∧
    ∃ s os, Run step (start (List.replicate 16 5) true) resetRun s os ∧ s.Ended ∧
      messages os = [continueReply (List.replicate 16 5),
        errReply true (List.replicate 16 5) "socket_in failed" "Connection lost", okReply (List.replicate 16 5)] ∧
      ¬ ReplyTrace (List.replicate 16 5) (messages os) :=
  ⟨by decide, _, _, .of_exec rfl, by decide, by decide, fun h => absurd h.countP_le_one (by decide)⟩

end TcpClient

end Wsnet
