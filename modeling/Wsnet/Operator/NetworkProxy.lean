import Wsnet.Operator.SspiProxy
import Wsnet.Pyodide.Closing
import Wsnet.Pyodide.Connect

/-!
# A tunnel of an operator

`WSNetworkWS` opens a websocket of its own for each tunnel. Through the router the notifications about
agents come on it too, with the zero token; `connect` takes the first message for the reply to its
CONNECT, and `__handle_in` reads `data` of every message, so a notification ends the tunnel wherever
it comes (`run_own_iff`).
-/

namespace Wsnet.Operator

open WSNETSSPIProxy (request)
open Router (zeroToken)

/-- The items of `in_q`; `none` is put when the tunnel does not open. -/
inductive InItem
  | none
  | data (d : CMD.Data)
  | error (e : PyErr)
  deriving DecidableEq

structure WSNetworkWS where
  token : Bytes
  ip : String
  port : Int
  agent_id : Option Bytes

/-- What `websockets.connect` and the first `send` raise. -/
structure Opening where
  connect : Except PyErr Unit := .ok ()
  send : Except PyErr Unit := .ok ()

namespace WSNetworkWS

/-- The reply to CONNECT. -/
def first_reply : Recv → Except PyErr Unit
  | .error e => .error e
  | .ok data =>
    match CMD.fromBytes data with
    | .error e => .error e
    | .ok cmd =>
      match Pyodide.WSNETConnection.replyError cmd with
      | some e => .error e
      | none => .ok ()

/-- What is received, and the messages left, when `connect` returns; `none` while it waits. -/
def connect (s : WSNetworkWS) (o : Opening) (incoming : List Recv) : Option (Except PyErr Unit × List Recv) :=
  match o.connect with
  | .error e => some (.error e, incoming)
  | .ok () =>
    match request s.agent_id (.CONNECT { token := s.token, protocol := "TCP", ip := s.ip, port := s.port }), o.send with
    | .error e, _ => some (.error e, incoming)
    | .ok _, .error e => some (.error e, incoming)
    | .ok _, .ok () =>
      match incoming with
      | [] => none
      | r :: q => some (first_reply r, q)

/-- One round of `__handle_in`. -/
def received : Recv → Except PyErr CMD.Data
  | .error e => .error e
  | .ok data =>
    match CMD.fromBytes data with
    | .error e => .error e
    | .ok (.OK _) => .error (.exception "Remote end terminated the socket")
    | .ok (.ERR _) => .error (.exception "Proxy sent error during data transmission. Killing the tunnel.")
    | .ok cmd =>
      match cmd.data with
      | some d => .ok d
      | none => .error .attributeError

/-- What `__handle_in` puts into `in_q`. -/
def handle_in : List Recv → List InItem
  | [] => []
  | r :: q =>
    match received r with
    | .ok d => .data d :: handle_in q
    | .error e => [.error e]

/-- What `connect` returns in `run`, and what is put into `in_q`. -/
def run (s : WSNetworkWS) (o : Opening) (incoming : List Recv) : Option (Except PyErr Unit) × List InItem :=
  match s.connect o incoming with
  | none => (none, [])
  | some (.error e, _) => (some (.error e), [.none])
  | some (.ok (), q) => (some (.ok ()), handle_in q)

/-! ### Notifications -/

/-- An AGENTINFO with the zero token. -/
def isNotification : Recv → Bool
  | .error _ => false
  | .ok data =>
    match CMD.fromBytes data with
    | .ok (.AGENTINFO c) => c.token = zeroToken
    | _ => false

/-- The messages without the notifications. -/
def own (incoming : List Recv) : List Recv := incoming.filter fun r => !isNotification r

/-- `connect` gets to its `recv`. -/
def Listens (s : WSNetworkWS) (o : Opening) : Prop :=
  o.connect = .ok () ∧ o.send = .ok () ∧
    ∃ raw, request s.agent_id (.CONNECT { token := s.token, protocol := "TCP", ip := s.ip, port := s.port }) = .ok raw

def raised {α : Type} : Except PyErr α → Option PyErr
  | .error e => some e
  | .ok _ => none

/-- The error with which a message behind `pre` is refused. -/
def refusal (pre : List Recv) (r : Recv) : Option PyErr :=
  match pre with
  | [] => raised (first_reply r)
  | _ :: _ => raised (received r)

/-- The tunnel is over after these messages. -/
def Ended : List Recv → Prop
  | [] => False
  | r :: q => (∃ e, first_reply r = .error e) ∨ ∃ p ∈ q, ∃ e, received p = .error e

/-- The first notification comes when the tunnel is over, or in front of a message that is refused like it. -/
def Undisturbed (incoming : List Recv) : Prop :=
  ∀ pre a post, incoming = pre ++ a :: post → (∀ p ∈ pre, isNotification p = false) → isNotification a = true →
    Ended pre ∨ ∃ r, (own post).head? = some r ∧ refusal pre r = refusal pre a

variable {s : WSNetworkWS} {o : Opening} {pre post incoming q : List Recv} {a r : Recv}

theorem refused_notification (ha : isNotification a = true) :
    first_reply a = .error (.exception ("Connection failed, expected CONTINUE, got " ++ pyStr 101)) ∧
      received a = .error .attributeError := by
  unfold isNotification at ha
  split at ha
  · cases ha
  · split at ha
    · rename_i data c hc
      simp only [first_reply, received, hc]
      exact ⟨rfl, rfl⟩
    · cases ha

theorem own_append (h : ∀ p ∈ pre, isNotification p = false) : own (pre ++ q) = pre ++ own q := by
  rw [own, List.filter_append, List.filter_eq_self.2 (by simpa using h)]
  rfl

theorem own_cons_notification (ha : isNotification a = true) : own (a :: q) = own q :=
  List.filter_cons_of_neg (by simp [ha])

/-- The first notification, if there is one. -/
theorem own_eq_or (incoming : List Recv) : own incoming = incoming ∨ ∃ pre a post, incoming = pre ++ a :: post ∧
    (∀ p ∈ pre, isNotification p = false) ∧ isNotification a = true := by
  induction incoming with
  | nil => exact .inl rfl
  | cons r q ih =>
    cases hr : isNotification r with
    | true => exact .inr ⟨[], r, q, rfl, by simp, hr⟩
    | false =>
      rcases ih with ih | ⟨pre, a, post, rfl, hpre, ha⟩
      · refine .inl ?_
        rw [← List.singleton_append, own_append (by simpa using hr), ih]
      · refine .inr ⟨r :: pre, a, post, rfl, fun p hp => ?_, ha⟩
        rcases List.mem_cons.1 hp with rfl | hp
        · exact hr
        · exact hpre p hp

/-! ### Items and results -/

theorem handle_in_cons_ok {d : CMD.Data} (hr : received r = .ok d) : handle_in (r :: q) = .data d :: handle_in q := by
  rw [handle_in, hr]

theorem handle_in_cons_error {e : PyErr} (hr : received r = .error e) : handle_in (r :: q) = [.error e] := by
  rw [handle_in, hr]

/-- A notification changes the items unless they have ended or end there with the same error. -/
theorem handle_in_eq_iff (ha : isNotification a = true) : handle_in (pre ++ q) = handle_in (pre ++ a :: post) ↔
    (∃ p ∈ pre, ∃ e, received p = .error e) ∨ ∃ r, q.head? = some r ∧ raised (received r) = raised (received a) := by
  induction pre with
  | nil =>
    have hno : ¬ ∃ p ∈ ([] : List Recv), ∃ e, received p = .error e := by simp
    rw [or_iff_right hno, List.nil_append, List.nil_append, handle_in_cons_error (refused_notification ha).2,
      (refused_notification ha).2]
    cases q with
    | nil => simp [handle_in]
    | cons r q =>
      cases hr : received r with
      | ok d => simp [handle_in_cons_ok hr, raised, hr]
      | error e => simp [handle_in_cons_error hr, raised, hr]
  | cons p pre ih =>
    cases hp : received p with
    | ok d =>
      rw [List.cons_append, List.cons_append, handle_in_cons_ok hp, handle_in_cons_ok hp, List.cons.injEq,
        and_iff_right rfl, ih]
      simp [hp]
    | error e =>
      rw [List.cons_append, List.cons_append, handle_in_cons_error hp, handle_in_cons_error hp]
      exact iff_of_true rfl (.inl ⟨p, List.mem_cons_self, e, hp⟩)

theorem run_of_refused {e : PyErr} (h : Listens s o) (hr : first_reply r = .error e) :
    s.run o (r :: q) = (some (.error e), [.none]) := by
  obtain ⟨hconnect, hsend, raw, hraw⟩ := h
  simp only [run, connect, hconnect, hsend, hraw, hr]

theorem run_of_accepted (h : Listens s o) (hr : first_reply r = .ok ()) :
    s.run o (r :: q) = (some (.ok ()), handle_in q) := by
  obtain ⟨hconnect, hsend, raw, hraw⟩ := h
  simp only [run, connect, hconnect, hsend, hraw, hr]

theorem run_nil_of_listens (h : Listens s o) : s.run o [] = (none, []) := by
  obtain ⟨hconnect, hsend, raw, hraw⟩ := h
  simp only [run, connect, hconnect, hsend, hraw]

/-- What `connect` raises before its `recv` does not depend on the messages. -/
theorem run_of_not_listens (h : ¬ Listens s o) : s.run o incoming = s.run o q := by
  unfold run connect
  cases hconnect : o.connect with
  | error e => rfl
  | ok u =>
    cases hraw : request s.agent_id (.CONNECT { token := s.token, protocol := "TCP", ip := s.ip, port := s.port }) with
    | error e => rfl
    | ok raw =>
      cases hsend : o.send with
      | error e => rfl
      | ok u => exact absurd ⟨hconnect, hsend, raw, hraw⟩ h

theorem run_eq_iff (h : Listens s o) (ha : isNotification a = true) : s.run o (pre ++ q) = s.run o (pre ++ a :: post) ↔
    Ended pre ∨ ∃ r, q.head? = some r ∧ refusal pre r = refusal pre a := by
  cases pre with
  | nil =>
    rw [or_iff_right (show ¬ Ended [] from id), List.nil_append, List.nil_append,
      run_of_refused h (refused_notification ha).1]
    simp only [refusal, (refused_notification ha).1]
    cases q with
    | nil => simp [run_nil_of_listens h]
    | cons r q =>
      cases hr : first_reply r with
      | ok u => simp [run_of_accepted h hr, raised, hr]
      | error e => simp [run_of_refused h hr, raised, hr]
  | cons p pre =>
    rw [List.cons_append, List.cons_append]
    cases hp : first_reply p with
    | error e =>
      rw [run_of_refused h hp, run_of_refused h hp]
      exact iff_of_true rfl (.inl (.inl ⟨e, hp⟩))
    | ok u =>
      rw [run_of_accepted h hp, run_of_accepted h hp]
      have hended : Ended (p :: pre) ↔ ∃ p ∈ pre, ∃ e, received p = .error e := by simp [Ended, hp]
      rw [hended]
      simp only [Prod.mk.injEq, true_and]
      exact handle_in_eq_iff ha

theorem run_data (h : Listens s o) {cont : Bytes} {k : WSNContinue} (hcont : CMD.fromBytes cont = .ok (.CONTINUE k))
    {sds : List (Bytes × WSNSocketData)} (hsds : ∀ x ∈ sds, CMD.fromBytes x.1 = .ok (.SD x.2)) :
    s.run o (.ok cont :: ((sds.map fun x => .ok x.1) ++ q)) =
      (some (.ok ()), (sds.map fun x => .data (.bytes x.2.data)) ++ handle_in q) := by
  have hfirst : first_reply (.ok cont) = .ok () := by simp only [first_reply, hcont, Pyodide.WSNETConnection.replyError]
  rw [run_of_accepted h hfirst]
  simp only [Prod.mk.injEq, true_and]
  induction sds with
  | nil => rfl
  | cons x sds ih =>
    have hx : received (.ok x.1) = .ok (.bytes x.2.data) := by
      simp only [received, hsds x List.mem_cons_self, CMD.data]
    rw [List.map_cons, List.cons_append, handle_in_cons_ok hx, ih fun y hy => hsds y (List.mem_cons_of_mem _ hy)]
    rfl

theorem handle_in_end {raw : Bytes} {c : CMD} (hraw : CMD.fromBytes raw = .ok c) (hc : c.type = .OK ∨ c.type = .ERR) :
    ∃ e, handle_in (.ok raw :: q) = [.error e] := by
  have hr : ∃ e, received (.ok raw) = .error e := by
    simp only [received, hraw]
    cases c with
    | OK c | ERR c => exact ⟨_, rfl⟩
    | _ => simp [CMD.type] at hc
  obtain ⟨e, he⟩ := hr
  exact ⟨e, handle_in_cons_error he⟩

/-- Notifications change nothing if and only if none comes before the tunnel is over, but for one in front of a message
that ends it alike; and without them `in_q` gets the data of the SD messages up to an OK or ERR. -/
theorem run_own_iff (s : WSNetworkWS) (o : Opening) :
    (∀ incoming : List Recv, s.run o (own incoming) = s.run o incoming ↔ (Listens s o → Undisturbed incoming)) ∧
    ∀ (cont : Bytes) (k : WSNContinue) (sds : List (Bytes × WSNSocketData)) (q : List Recv),
      Listens s o → CMD.fromBytes cont = .ok (.CONTINUE k) →
      (∀ x ∈ sds, CMD.fromBytes x.1 = .ok (.SD x.2)) →
        s.run o (.ok cont :: ((sds.map fun x => .ok x.1) ++ q)) =
          (some (.ok ()), (sds.map fun x => .data (.bytes x.2.data)) ++ handle_in q) ∧
        ∀ raw c q', q = .ok raw :: q' → CMD.fromBytes raw = .ok c → c.type = .OK ∨ c.type = .ERR →
          ∃ e, handle_in q = [.error e] := by
  refine ⟨fun incoming => ?_, fun cont k sds q h hcont hsds => ⟨run_data h hcont hsds, ?_⟩⟩
  · by_cases h : Listens s o
    · constructor
      · rintro heq - pre a post rfl hpre ha
        rw [own_append hpre, own_cons_notification ha] at heq
        exact (run_eq_iff h ha).1 heq
      · intro hu
        rcases own_eq_or incoming with hown | ⟨pre, a, post, rfl, hpre, ha⟩
        · rw [hown]
        · rw [own_append hpre, own_cons_notification ha]
          exact (run_eq_iff h ha).2 (hu h pre a post rfl hpre ha)
    · exact iff_of_true (run_of_not_listens h) fun h' => absurd h' h
  · rintro raw c q' rfl hraw hc
    exact handle_in_end hraw hc

/-! ### An agent joins -/

def tunnelToken : Bytes := List.replicate 16 9

def tunnel : WSNetworkWS := { token := tunnelToken, ip := "10.0.0.1", port := 80, agent_id := some proxyToken }

def continueFrame : Bytes := [0, 0, 0, 26, 0, 4] ++ tunnelToken ++ [0, 0, 0, 0]

def dataFrame : Bytes := [0, 0, 0, 24, 0, 7] ++ tunnelToken ++ [1, 2]

def okFrame : Bytes := [0, 0, 0, 26, 0, 0] ++ tunnelToken ++ [0, 0, 0, 0]

theorem exists_of_isOk {α : Type} {x : Except PyErr α} (h : x.isOk = true) : ∃ a, x = .ok a := by
  cases x with
  | ok a => exact ⟨a, rfl⟩
  | error e => cases h

theorem tunnel_listens : Listens tunnel {} := ⟨rfl, rfl, exists_of_isOk (by decide +kernel)⟩

/-- Behind the OK a notification is not received. -/
theorem run_own_tunnel :
    tunnel.run {} (own [.ok continueFrame, .ok dataFrame, .ok okFrame, .ok announcement]) =
        tunnel.run {} [.ok continueFrame, .ok dataFrame, .ok okFrame, .ok announcement] ∧
      tunnel.run {} [.ok continueFrame, .ok dataFrame, .ok okFrame] =
        (some (.ok ()), .data (.bytes [1, 2]) :: handle_in [.ok okFrame]) ∧
      ∃ e, handle_in [.ok okFrame] = [.error e] := by
  obtain ⟨hiff, hdata⟩ := run_own_iff tunnel {}
  obtain ⟨hrun, hend⟩ := hdata continueFrame { token := tunnelToken }
    [(dataFrame, { token := tunnelToken, data := [1, 2] })] [.ok okFrame] tunnel_listens rfl (by simp; rfl)
  refine ⟨(hiff _).2 fun _ pre a post heq _ ha => ?_, hrun,
    hend okFrame (.OK { token := tunnelToken }) [] rfl rfl (.inl rfl)⟩
  have hended : ∃ e, received (.ok okFrame) = .error e := ⟨_, rfl⟩
  rcases pre with _ | ⟨p₁, _ | ⟨p₂, _ | ⟨p₃, pre⟩⟩⟩
  · cases heq
    exact absurd ha (by decide)
  · cases heq
    exact absurd ha (by decide)
  · cases heq
    exact absurd ha (by decide)
  · simp only [List.cons_append, List.cons.injEq] at heq
    exact .inl (.inr ⟨p₃, by simp, by rw [← heq.2.2.1]; exact hended⟩)

/-- An agent joins after CONTINUE, or before it. -/
theorem not_run_own_announcement :
    tunnel.run {} (own [.ok continueFrame, .ok announcement, .ok dataFrame]) ≠
        tunnel.run {} [.ok continueFrame, .ok announcement, .ok dataFrame] ∧
      tunnel.run {} (own [.ok announcement, .ok continueFrame]) ≠
        tunnel.run {} [.ok announcement, .ok continueFrame] := by
  decide +kernel

end WSNetworkWS

end Wsnet.Operator
