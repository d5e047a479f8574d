import Wsnet.Agent.Session

/-!
# Every CONNECT is answered, or almost

`firstAnswer` looks at the first message of a session: it is a good answer if it carries the token of
the CONNECT and is an `ERR`, or a `CONTINUE` that was preceded by the opening of the socket asked
for. Once there is a first message nothing that follows changes it (`firstAnswer_append`), so each
branch has to be followed up to its first message only. There are three ways to a bad end: the
`except` around the UDP client branch answers nothing, a UDP bind of an unknown type has no branch,
and the NBTNS branch reports success for a socket it had no address to bind to.
-/

namespace Wsnet

/-- Whether the first message among the effects is a good answer, if there is a message; `isOpen` says
that the socket is open already. -/
def firstAnswer (token : Bytes) : Bool → List Effect → Option Bool
  | _, [] => none
  | _, .opened :: os => firstAnswer token true os
  | isOpen, .sent m :: _ => some (decide (m.token = token ∧ (m.type = .ERR ∨ m.type = .CONTINUE ∧ isOpen)))
  | isOpen, _ :: os => firstAnswer token isOpen os

theorem firstAnswer_append {token : Bytes} {os : List Effect} {isOpen b : Bool}
    (h : firstAnswer token isOpen os = some b) (o : List Effect) : firstAnswer token isOpen (os ++ o) = some b := by
  induction os generalizing isOpen with
  | nil => cases h
  | cons e os ih =>
    cases e with
    | sent m => exact h
    | _ => exact ih h

/-- A first message that follows effects without a message. -/
theorem firstAnswer_append_of_none {token : Bytes} {os : List Effect} {isOpen : Bool}
    (h : firstAnswer token isOpen os = none) (o : List Effect) :
    ∃ isOpen', firstAnswer token isOpen (os ++ o) = firstAnswer token isOpen' o := by
  induction os generalizing isOpen with
  | nil => exact ⟨isOpen, rfl⟩
  | cons e os ih =>
    cases e with
    | sent m => cases h
    | _ => exact ih h

/-! ### The branches up to their first message -/

namespace TcpClient
variable {s s' : TcpClient} {e : Event} {o os : List Effect}

/-- The socket is not open yet, or the first message is a good answer. -/
def AnswerInv (s : TcpClient) (os : List Effect) : Prop :=
  (s.main = .opening ∧ s.dataIn = .none ∧ s.cancelled = false ∧ os = []) ∨
    (s.main ≠ .opening ∧ firstAnswer s.token false os = some true)

theorem main_ne_opening (h : s.step e = some (s', o)) (hm : s.main ≠ .opening) : s'.main ≠ .opening := by
  cases e with
  | put c => cases h; exact hm
  | main e => cases mainStep_of_step h <;> first | exact hm | nofun
  | dataIn e => cases dataInStep_of_step h <;> exact hm

theorem AnswerInv.step (hp : s.AnswerInv os) (h : s.step e = some (s', o)) : s'.AnswerInv (os ++ o) := by
  have ht := token_of_step h
  rcases hp with ⟨hm, hd, hc, rfl⟩ | ⟨hm, hfa⟩
  · cases e with
    | put c => cases h; exact .inl ⟨hm, hd, hc, rfl⟩
    | main e =>
      cases mainStep_of_step h with
      | opened => exact .inr ⟨nofun, by simp [firstAnswer]⟩
      | openFailed exc => exact .inr ⟨nofun, by simp [fail, firstAnswer]⟩
      | _ => simp_all
    | dataIn e => cases dataInStep_of_step h <;> simp_all
  · exact .inr ⟨main_ne_opening h hm, by rw [ht]; exact firstAnswer_append hfa o⟩

end TcpClient

namespace UdpClient
variable {s s' : UdpClient} {e : Event} {o os : List Effect}

/-- The socket is not open yet; or it did not open and nothing is ever sent; or the first message is a
good answer. -/
def AnswerInv (s : UdpClient) (os : List Effect) : Prop :=
  (s.main = .opening ∧ s.writer = .none ∧ os = []) ∨ (s.main = .done ∧ s.writer = .none ∧ os = []) ∨
    (s.main ≠ .opening ∧ firstAnswer s.token false os = some true)

theorem AnswerInv.step (hp : s.AnswerInv os) (h : s.step e = some (s', o)) : s'.AnswerInv (os ++ o) := by
  have ht := token_of_step h
  rcases hp with ⟨hm, hw, rfl⟩ | ⟨hm, hw, rfl⟩ | ⟨hm, hfa⟩
  · rcases step_of_opening hm hw h with ⟨-, rfl, rfl⟩ | ⟨-, rfl, rfl⟩
    · exact .inr (.inr ⟨nofun, by simp [firstAnswer]⟩)
    · exact .inr (.inl ⟨rfl, hw, rfl⟩)
  · rw [step_of_done hm (.inl hw)] at h
    cases h
  · exact .inr (.inr ⟨(step_of_ne_opening hm h).1, by rw [ht]; exact firstAnswer_append hfa o⟩)

end UdpClient

namespace TcpServer
variable {s s' : TcpServer} {e : Event} {o os : List Effect}

def AnswerInv (s : TcpServer) (os : List Effect) : Prop :=
  (s.Pending ∧ s.serve = .none ∧ firstAnswer s.token false os = none) ∨
    (¬ s.Pending ∧ firstAnswer s.token false os = some true)

theorem AnswerInv.step (hp : s.AnswerInv os) (h : s.step e = some (s', o)) : s'.AnswerInv (os ++ o) := by
  have ht := token_of_step h
  rcases hp with ⟨hm, hs, hfa⟩ | ⟨hm, hfa⟩
  · obtain ⟨isOpen, hfa'⟩ := firstAnswer_append_of_none hfa o
    rcases step_of_pending hm hs h with ⟨-, -, rfl, rfl⟩ | ⟨exc, -, rfl, rfl⟩ | ⟨-, rfl, rfl⟩
    · exact .inl ⟨.inr rfl, hs, hfa'⟩
    · exact .inr ⟨by simp [Pending, fail], by rw [ht, hfa']; simp [fail, firstAnswer]⟩
    · exact .inr ⟨by simp [Pending], by rw [ht, hfa']; simp [firstAnswer]⟩
  · exact .inr ⟨(step_of_not_pending hm h).1, by rw [ht]; exact firstAnswer_append hfa o⟩

end TcpServer

namespace UdpServer
variable {s s' : UdpServer} {e : Event} {o os : List Effect}

/-- The answer is good unless the socket that was opened is not bound. -/
def AnswerInv (s : UdpServer) (good : Bool) (os : List Effect) : Prop :=
  s.main ≠ .opening ∧ firstAnswer s.token false os = some good

/-- Nothing has happened yet. -/
def Fresh (s : UdpServer) : Prop := s.main = .opening ∧ s.run = .none ∧ s.writer = .none ∧ s.watchdog = .none

theorem AnswerInv.step {good : Bool} (hp : s.AnswerInv good os) (h : s.step e = some (s', o)) :
    s'.AnswerInv good (os ++ o) :=
  ⟨(step_of_ne_opening hp.1 h).1, by rw [token_of_step h]; exact firstAnswer_append hp.2 o⟩

theorem Fresh.opened {bound : Bool} (hp : s.Fresh) (h : s.step (.opened bound) = some (s', o)) :
    s'.AnswerInv bound o := by
  rcases step_of_opening hp.1 hp.2.1 hp.2.2.1 hp.2.2.2 h with ⟨b, ⟨⟩, rfl, rfl⟩ | ⟨exc, ⟨⟩, -⟩
  exact ⟨nofun, by cases bound <;> simp [firstAnswer]⟩

theorem Fresh.openFailed {exc : String} (hp : s.Fresh) (h : s.step (.openFailed exc) = some (s', o)) :
    s'.AnswerInv true o := by
  rcases step_of_opening hp.1 hp.2.1 hp.2.2.1 hp.2.2.2 h with ⟨b, ⟨⟩, -⟩ | ⟨exc, ⟨⟩, rfl, rfl⟩
  exact ⟨nofun, by simp [fail, firstAnswer]⟩

end UdpServer

/-! ### The session -/

namespace Session

/-- The outcomes of the opening calls among the events. -/
def openings (es : List Event) : List Os :=
  es.filterMap fun
    | .opening o => some o
    | _ => none

/-- The command is not a UDP bind of an unknown type, and what the operating system makes of the calls is
not one of the two outcomes that go wrong: an exception in the UDP client branch, and success without
an address to bind to in the NBTNS branch. -/
def Answerable (c : WSNConnect) (es : List Event) : Prop :=
  c.kind ≠ .udpServerOther ∧ ∀ o ∈ openings es,
    (c.kind = .udpClient → o.firstExc (openCalls c o) = none) ∧
      (boundAfter c o = false → o.firstExc (openCalls c o) ≠ none)

/-- The first message is a good answer unless the socket was opened without being bound. -/
def goodOutcome (c : WSNConnect) (o : Os) : Bool := boundAfter c o || (o.firstExc (openCalls c o)).isSome

/-- How far the answer of a CONNECT is, branch by branch, with the outcomes seen so far. -/
def AnswerTask (c : WSNConnect) (es : List Event) (os : List Effect) : SessionTask → Prop
  | .tcpClient t => c.kind = .tcpClient ∧ t.token = c.token ∧ t.AnswerInv os
  | .udpClient t => c.kind = .udpClient ∧ t.token = c.token ∧ t.AnswerInv os ∧
      ((t.main = .opening ∧ openings es = []) ∨ (t.main ≠ .opening ∧ ∃ o, openings es = [o] ∧
        (o.firstExc (openCalls c o) = none ↔ firstAnswer c.token false os = some true)))
  | .tcpServer t => (c.kind = .tcpServer ∨ c.kind = .tcpServerOther) ∧ t.token = c.token ∧ t.AnswerInv os
  | .udpServer t => c.kind ∈ [.udpServer, .llmnr, .nbtns, .mdns] ∧ t.token = c.token ∧
      ((t.Fresh ∧ os = [] ∧ openings es = []) ∨ ∃ o, openings es = [o] ∧ t.AnswerInv (goodOutcome c o) os)
  | .nothing _ => c.kind = .udpServerOther ∧ firstAnswer c.token false os = none

theorem openings_snoc (es : List Event) (e : Event) :
    openings (es ++ [e]) = openings es ++ openings [e] := by
  simp [openings, List.filterMap_append]

/-- An event that is no outcome for its branch is not an opening. -/
theorem openings_of_isOutcome_eq_false {s : Session} {e : Event} (hk : ∀ b, s.task ≠ .nothing b)
    (he : (s.taskEvent e).isOutcome = false) : openings [e] = [] := by
  cases e with
  | opening o => rw [taskEvent, isOutcome_outcome hk] at he; cases he
  | _ => rfl

theorem answerTask_create (full : Bool) (c : WSNConnect) : AnswerTask c [] [] (create full c).task := by
  unfold create
  cases h : c.kind <;>
    simp [AnswerTask, h, TcpClient.AnswerInv, UdpClient.AnswerInv, TcpServer.AnswerInv, TcpServer.Pending,
      UdpServer.Fresh, firstAnswer, openings]

theorem AnswerTask.step {c : WSNConnect} {es : List Event} {s s' : Session} {e : Event} {o os : List Effect}
    (hc : s.cmd = c) (hp : AnswerTask c es os s.task) (h : s.step e = some (s', o)) :
    AnswerTask c (es ++ [e]) (os ++ o) s'.task := by
  obtain ⟨-, ht⟩ := step_eq_some h
  have hopen := opening_of_isOutcome h
  generalize hk : s.task = k at hp ht
  generalize s'.task = k' at ht
  generalize he : s.taskEvent e = e' at ht hopen
  cases ht with
  | tcpClient hs => exact ⟨hp.1, (TcpClient.token_of_step hs).trans hp.2.1, hp.2.2.step hs⟩
  | tcpServer hs => exact ⟨hp.1, (TcpServer.token_of_step hs).trans hp.2.1, hp.2.2.step hs⟩
  | nothing => exact ⟨hp.1, by rw [List.append_nil]; exact hp.2⟩
  | @udpClient t t' e' o hs =>
    have hk' : ∀ b, s.task ≠ .nothing b := by simp [hk]
    refine ⟨hp.1, (UdpClient.token_of_step hs).trans hp.2.1, hp.2.2.1.step hs, ?_⟩
    rw [openings_snoc]
    rcases hp.2.2.2 with ⟨hm, hes⟩ | ⟨hm, o₀, hes, hiff⟩
    · -- the outcome of the calls decides
      have hw : t.writer = .none ∧ os = [] := by simpa [UdpClient.AnswerInv, hm] using hp.2.2.1
      rcases UdpClient.step_of_opening hm hw.1 hs with ⟨rfl, rfl, rfl⟩ | ⟨rfl, rfl, rfl⟩
      · obtain ⟨o₀, rfl⟩ := hopen rfl
        have hf : o₀.firstExc (openCalls c o₀) = none := by
          cases hf : o₀.firstExc (openCalls c o₀) <;> simp_all [taskEvent, outcome]
        exact .inr ⟨by simp, o₀, by rw [hes]; rfl, by simp [hf, hw.2, firstAnswer, hp.2.1]⟩
      · obtain ⟨o₀, rfl⟩ := hopen rfl
        have hf : o₀.firstExc (openCalls c o₀) ≠ none := by
          cases hf : o₀.firstExc (openCalls c o₀) <;> simp_all [taskEvent, outcome]
        exact .inr ⟨by simp, o₀, by rw [hes]; rfl, by simp [hf, hw.2, firstAnswer]⟩
    · have hne := UdpClient.step_of_ne_opening hm hs
      have hnil : openings [e] = [] := openings_of_isOutcome_eq_false hk' (by
        rw [he]; cases e' <;> simp_all [Event.isOutcome])
      refine .inr ⟨hne.1, o₀, by rw [hes, hnil]; rfl, hiff.trans ?_⟩
      rcases hp.2.2.1 with ⟨hm', -, -⟩ | ⟨hm', hw, -⟩ | ⟨-, hfa⟩
      · exact absurd hm' hm
      · rw [UdpClient.step_of_done hm' (.inl hw)] at hs
        cases hs
      · rw [hp.2.1] at hfa
        simp [hfa, firstAnswer_append hfa]
  | @udpServer t t' e' o hs =>
    have hk' : ∀ b, s.task ≠ .nothing b := by simp [hk]
    refine ⟨hp.1, (UdpServer.token_of_step hs).trans hp.2.1, .inr ?_⟩
    rw [openings_snoc]
    rcases hp.2.2 with ⟨hfresh, rfl, hes⟩ | ⟨o₀, hes, hans⟩
    · rcases UdpServer.step_of_opening hfresh.1 hfresh.2.1 hfresh.2.2.1 hfresh.2.2.2 hs with
        ⟨bound, rfl, -⟩ | ⟨exc, rfl, -⟩
      · obtain ⟨o₀, rfl⟩ := hopen rfl
        have hf : goodOutcome c o₀ = bound := by
          cases hf : o₀.firstExc (openCalls c o₀) <;> simp_all [taskEvent, outcome, goodOutcome]
        exact ⟨o₀, by rw [hes]; rfl, by rw [hf]; exact hfresh.opened hs⟩
      · obtain ⟨o₀, rfl⟩ := hopen rfl
        have hf : goodOutcome c o₀ = true := by
          cases hf : o₀.firstExc (openCalls c o₀) <;> simp_all [taskEvent, outcome, goodOutcome]
        exact ⟨o₀, by rw [hes]; rfl, by rw [hf]; exact hfresh.openFailed hs⟩
    · have hne := UdpServer.step_of_ne_opening hans.1 hs
      have hnil : openings [e] = [] := openings_of_isOutcome_eq_false hk' (by
        rw [he]; cases e' <;> simp_all [Event.isOutcome])
      exact ⟨o₀, by rw [hes, hnil]; rfl, hans.step hs⟩

theorem answerTask_of_run {full : Bool} {c : WSNConnect} {es : List Event} {s : Session} {os : List Effect}
    (h : Run step (create full c) es s os) : AnswerTask c es os s.task :=
  (h.history_invariant_of (P := fun es s os => s.cmd = c ∧ AnswerTask c es os s.task) (A := fun _ => True)
    (fun _ hp hs => ⟨(step_eq_some hs).1.trans hp.1, hp.2.step hp.1 hs⟩) (fun _ _ => trivial)
    ⟨rfl, answerTask_create full c⟩).2

theorem answerable_of_kind {c : WSNConnect} {es : List Event} (h1 : c.kind ≠ .udpServerOther) (h2 : c.kind ≠ .udpClient)
    (h3 : c.kind ≠ .nbtns) : Answerable c es :=
  ⟨h1, fun o _ => ⟨fun h => absurd h h2, fun hb => by simp [boundAfter, h3] at hb⟩⟩

/-- The first message of a CONNECT is not a bad answer, and has been sent when the handler returns, for
the answerable ones; and of the handlers that have returned only those have sent a good answer. -/
theorem firstAnswer_iff {full : Bool} {c : WSNConnect} {es : List Event} {s : Session} {os : List Effect}
    (h : Run step (create full c) es s os) :
    (Answerable c es → firstAnswer c.token false os ≠ some false) ∧
      (s.isOver = true → (firstAnswer c.token false os = some true ↔ Answerable c es)) := by
  have hp := answerTask_of_run h
  unfold isOver
  cases hk : s.task with
  | tcpClient t =>
    rw [hk] at hp
    obtain ⟨hkind, ht, ⟨hm, -, -, rfl⟩ | ⟨hm, hfa⟩⟩ := hp
    · simp [firstAnswer, hm]
    · rw [ht] at hfa
      simp [hfa, answerable_of_kind, hkind]
  | tcpServer t =>
    rw [hk] at hp
    obtain ⟨hkind, ht, ⟨hm, -, hfa⟩ | ⟨hm, hfa⟩⟩ := hp
    · rw [ht] at hfa
      rcases hm with hm | hm <;> simp [hfa, hm]
    · rw [ht] at hfa
      rcases hkind with hkind | hkind <;> simp [hfa, answerable_of_kind, hkind]
  | nothing b =>
    rw [hk] at hp
    simp [hp.2, Answerable, hp.1]
  | udpClient t =>
    rw [hk] at hp
    obtain ⟨hkind, ht, hinv, ⟨hm, hes⟩ | ⟨hm, o₀, hes, hiff⟩⟩ := hp
    · have hos : t.writer = .none ∧ os = [] := by simpa [UdpClient.AnswerInv, hm] using hinv
      simp [hos.2, firstAnswer, hm]
    · have hA : Answerable c es ↔ o₀.firstExc (openCalls c o₀) = none := by
        simp [Answerable, hes, hkind, boundAfter]
      have hne : firstAnswer c.token false os ≠ some false := by
        rcases hinv with ⟨hm', -⟩ | ⟨-, -, rfl⟩ | ⟨-, hfa⟩
        · exact absurd hm' hm
        · simp [firstAnswer]
        · simp [← ht, hfa]
      exact ⟨fun _ => hne, fun _ => hiff.symm.trans hA.symm⟩
  | udpServer t =>
    rw [hk] at hp
    obtain ⟨hkind, ht, ⟨hfresh, rfl, hes⟩ | ⟨o₀, hes, hans⟩⟩ := hp
    · simp [firstAnswer, hfresh.1]
    · have hA : Answerable c es ↔ goodOutcome c o₀ = true := by
        simp only [List.mem_cons, List.not_mem_nil, or_false] at hkind
        rcases hkind with hkind | hkind | hkind | hkind <;>
          simp [Answerable, hes, hkind, goodOutcome, boundAfter, Option.isSome_iff_ne_none, or_iff_not_imp_left]
      rw [hA, ← ht, hans.2]
      simp

/-- A UDP connection to a host that does not resolve. -/
def udpConnect : WSNConnect := { token := List.replicate 16 3, protocol := "UDP", ip := "nohost", port := 53 }

def unresolved : Os := { raises := fun _ => some "Name or service not known" }

theorem firstAnswer_udpConnect : ∃ s os, Run step (create true udpConnect) [.opening unresolved] s os ∧
    (Answerable udpConnect [.opening unresolved] → firstAnswer udpConnect.token false os ≠ some false) ∧
      (s.isOver = true → (firstAnswer udpConnect.token false os = some true ↔
        Answerable udpConnect [.opening unresolved])) :=
  have h : Run step (create true udpConnect) [.opening unresolved] _ _ := .of_exec rfl
  ⟨_, _, h, firstAnswer_iff h⟩

/-- The handler returns and has sent nothing. -/
theorem not_answered_udpConnect : ∃ s os, Run step (create true udpConnect) [.opening unresolved] s os ∧
    s.isOver = true ∧ messages os = [] ∧ firstAnswer udpConnect.token false os ≠ some true :=
  ⟨_, _, .of_exec rfl, rfl, rfl, nofun⟩

end Session

end Wsnet
