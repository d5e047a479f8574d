import Wsnet.Lib.Run
import Wsnet.Pyodide.Interface

/-!
# What `run` makes of the answer

`onDataReceived` sets one event for CONTINUE, OK and ERR alike, and `run` looks at `last_error` only when
it gets to resume. What has come by then decides: a connection that was accepted and closed before counts
as refused (`run_accepted_iff`). `in_q` gets the same either way.
-/

namespace Wsnet.Pyodide

/-- The text of the exception that a message makes of the connection. -/
def endText : CMD → Option String
  | .OK _ => some "Remote end terminated the socket"
  | .ERR c => some ("Transmission error: " ++ c.reason)
  | _ => none

theorem endText_eq_none {c : CMD} : endText c = none ↔ c.type ≠ .OK ∧ c.type ≠ .ERR := by
  cases c <;> simp [endText, CMD.type]

theorem exists_endText {c : CMD} (h : c.type = .OK ∨ c.type = .ERR) : ∃ err, endText c = some err :=
  Option.ne_none_iff_exists'.1 fun hnone => h.elim (endText_eq_none.1 hnone).1 (endText_eq_none.1 hnone).2

/-- What a message puts into `in_q`. -/
def InItem.received (c : CMD) : Option InItem := ((endText c).map .ended).or (InItem.ofCmd? c)

/-- `connection_established_evt` is set. -/
def wakes : CMD → Bool
  | .OK _ | .ERR _ | .CONTINUE _ => true
  | _ => false

theorem wakes_of_type {c : CMD} (h : c.type = .CONTINUE ∨ c.type = .OK ∨ c.type = .ERR) : wakes c = true := by
  cases c with
  | CONTINUE | OK | ERR => rfl
  | _ => simp [CMD.type] at h

namespace WSNetworkTCP

/-- What `run` returns when it gets to resume. -/
def resumed (t : WSNetworkTCP) : Bool × Option String := (t.last_error.isNone, t.last_error)

/-- `run` has not returned. -/
def Pending (t : WSNetworkTCP) : Prop := ∀ ok, t.runPc ≠ .returned ok

/-- What the messages `cs` have made of a connection, together with whatever else has happened to it;
`ended` says whether it was terminated meanwhile. -/
structure Progress (ended : Prop) (cs : List CMD) (t t' : WSNetworkTCP) : Prop where
  in_q : t'.in_q = t.in_q ++ cs.filterMap InItem.received
  returned : ∀ ok, t.runPc = .returned ok → t'.runPc = .returned ok
  last_error : ¬ ended → t'.Pending → t'.last_error = (cs.filterMap endText).getLast?.or t.last_error
  established : ¬ ended → t'.Pending → t'.connection_established = (cs.any wakes || t.connection_established)
  woken : ¬ ended → (∀ b, t.runPc = .waiting b → b = t.connection_established) →
    ∀ b, t'.runPc = .waiting b → b = t'.connection_established

namespace Progress
variable {ended ended' : Prop} {cs cs' : List CMD} {t t' t'' : WSNetworkTCP}

theorem pending (h : Progress ended cs t t') (ht : t'.Pending) : t.Pending :=
  fun ok hok => ht ok (h.returned ok hok)

theorem refl (t : WSNetworkTCP) : Progress ended [] t t :=
  ⟨by simp, fun _ h => h, fun _ _ => rfl, fun _ _ => rfl, fun _ h => h⟩

theorem trans (h : Progress ended cs t t') (h' : Progress ended' cs' t' t'') :
    Progress (ended ∨ ended') (cs ++ cs') t t'' := by
  refine ⟨?_, fun ok hok => h'.returned ok (h.returned ok hok), fun he ht => ?_, fun he ht => ?_, fun he hw => ?_⟩
  · rw [h'.in_q, h.in_q, List.filterMap_append, List.append_assoc]
  · rw [h'.last_error (fun hc => he (.inr hc)) ht, h.last_error (fun hc => he (.inl hc)) (h'.pending ht),
      List.filterMap_append, List.getLast?_append, Option.or_assoc]
  · rw [h'.established (fun hc => he (.inr hc)) ht, h.established (fun hc => he (.inl hc)) (h'.pending ht),
      List.any_append, Bool.or_left_comm, Bool.or_assoc]
  · exact h'.woken (fun hc => he (.inr hc)) (h.woken (fun hc => he (.inl hc)) hw)

theorem congr (h : Progress ended cs t t') (he : ended' ↔ ended) : Progress ended' cs t t' := by
  rwa [propext he]

/-- A step that leaves `in_q` and what `run` looks at alone. -/
theorem of_eq (hq : t'.in_q = t.in_q) (hpc : t'.runPc = t.runPc) (hl : t'.last_error = t.last_error)
    (hc : t'.connection_established = t.connection_established) : Progress ended [] t t' := by
  refine ⟨by simp [hq], fun ok h => hpc ▸ h, fun _ _ => hl, fun _ _ => hc, fun _ h b hb => ?_⟩
  rw [hc]
  exact h b (hpc ▸ hb)

theorem of_registered (token : Bytes) (h : t.Pending) : Progress ended [] t (t.registered token) :=
  ⟨by simp [registered], fun ok hok => absurd hok (h ok), fun _ _ => rfl, fun _ _ => rfl,
    fun _ _ b hb => (RunPc.waiting.inj hb).symm⟩

theorem of_returned (ok : Bool) (h : t.Pending) (hq : t'.in_q = t.in_q) (hr : t'.runPc = .returned ok) :
    Progress ended [] t t' := by
  refine ⟨by simp [hq], fun ok hok => absurd hok (h ok), fun _ ht => absurd hr (ht ok), fun _ ht => absurd hr (ht ok),
    fun _ _ b hb => ?_⟩
  rw [hr] at hb
  cases hb

theorem of_terminated (h : ended) : Progress ended [] t t.terminated :=
  ⟨by simp [terminated], fun _ hok => hok, fun he => absurd h he, fun he => absurd h he, fun he => absurd h he⟩

end Progress

theorem pending_of_eq {t : WSNetworkTCP} {pc : RunPc} (h : t.runPc = pc) (hpc : ∀ ok, pc ≠ .returned ok) : t.Pending :=
  fun ok hok => hpc ok (h ▸ hok)

theorem in_q_establish (t : WSNetworkTCP) : t.establish.in_q = t.in_q := rfl

theorem waiting_establish {t : WSNetworkTCP} {b : Bool} (h : t.establish.runPc = .waiting b) : b = true := by
  simp only [establish] at h
  split at h
  · exact (RunPc.waiting.inj h).symm
  · rename_i hne
    exact absurd h (hne b)

theorem quiet {c : CMD} (hok : ∀ a, c ≠ .OK a) (herr : ∀ a, c ≠ .ERR a) (hcont : ∀ a, c ≠ .CONTINUE a) :
    endText c = none ∧ wakes c = false := by
  constructor
  · unfold endText
    split
    · exact absurd rfl (hok _)
    · exact absurd rfl (herr _)
    · rfl
  · unfold wakes
    split
    · exact absurd rfl (hok _)
    · exact absurd rfl (herr _)
    · exact absurd rfl (hcont _)
    · rfl

/-- One message. -/
theorem progress_onDataReceived (t : WSNetworkTCP) (c : CMD) : Progress False [c] t (t.onDataReceived c) := by
  have hset : ∀ t₁ : WSNetworkTCP, ∀ b, t₁.establish.runPc = .waiting b → b = t₁.establish.connection_established :=
    fun t₁ b hb => waiting_establish hb
  fun_cases onDataReceived t c
  case case1 =>
    exact ⟨rfl, fun ok h => (runPc_establish _ _ (by simp)).2 h, fun _ _ => rfl, fun _ _ => rfl, fun _ _ => hset _⟩
  case case2 =>
    exact ⟨rfl, fun ok h => (runPc_establish _ _ (by simp)).2 h, fun _ _ => rfl, fun _ _ => rfl, fun _ _ => hset _⟩
  case case3 =>
    exact ⟨by simp [InItem.received, endText, InItem.ofCmd?, CMD.data, in_q_establish], fun ok h => (runPc_establish _ _ (by simp)).2 h,
      fun _ _ => rfl, fun _ _ => rfl, fun _ _ => hset _⟩
  case case4 item hok herr hcont hitem =>
    obtain ⟨hend, hwakes⟩ := quiet hok herr hcont
    exact ⟨by simp [InItem.received, hend, hitem], fun ok h => h, fun _ _ => by simp [hend],
      fun _ _ => by simp [hwakes], fun _ h => h⟩
  case case5 hok herr hcont hitem =>
    obtain ⟨hend, hwakes⟩ := quiet hok herr hcont
    exact ⟨by simp [InItem.received, hend, hitem], fun ok h => h, fun _ _ => by simp [hend],
      fun _ _ => by simp [hwakes], fun _ h => h⟩

theorem progress_foldl (cs : List CMD) (t : WSNetworkTCP) : Progress False cs t (cs.foldl onDataReceived t) := by
  induction cs generalizing t with
  | nil => exact .refl t
  | cons c cs ih =>
    have h := (progress_onDataReceived t c).trans (ih (t.onDataReceived c))
    exact h.congr (or_self_iff).symm

end WSNetworkTCP

namespace WSNETWSInterface
open WSNetworkTCP

/-- The messages that a step gives to `onDataReceived` of connection `j`. -/
def deliveredIn (j : Nat) (i : WSNETWSInterface) : Event → List CMD
  | .onData data =>
    match CMD.fromBytes data with
    | .ok c => if i.dispatch_table.get? c.token = some j then [c] else []
    | .error _ => []
  | .terminate => (i.dispatch_table.keys.filter fun token => i.dispatch_table.get? token = some j).map
      fun token => .OK { token }
  | _ => []

/-- The messages that a run gives to it. -/
def delivered (j : Nat) (i : WSNETWSInterface) : List Event → List CMD
  | [] => []
  | e :: es =>
    match i.step e with
    | some (i', _) => i.deliveredIn j e ++ i'.delivered j es
    | none => []

variable {i i' i₁ i₂ : WSNETWSInterface} {j k : Nat} {t t' : WSNetworkTCP} {e : Event} {es es₁ es₂ : List Event}
  {fs fs₁ fs₂ : List Bytes}

theorem dispatch_table_dispatch (c : CMD) : (i.dispatch k c).dispatch_table = i.dispatch_table := by
  unfold dispatch
  split <;> rfl

theorem tcps_setTcp (ht : i.tcps[j]? = some t) : (i.setTcp j t').tcps[j]? = some t' := by
  have hlt : j < i.tcps.length := (List.getElem?_eq_some_iff.1 ht).1
  exact List.getElem?_set_self hlt

theorem tcps_setTcp_ne (hk : k ≠ j) : (i.setTcp k t').tcps[j]? = i.tcps[j]? := List.getElem?_set_ne hk

theorem tcps_dispatch (ht : i.tcps[j]? = some t) (c : CMD) :
    (i.dispatch k c).tcps[j]? = some (if k = j then t.onDataReceived c else t) := by
  unfold dispatch
  split
  · rename_i t₁ ht₁
    by_cases hk : k = j
    · subst hk
      rw [if_pos rfl, tcps_setTcp ht₁, Option.some.inj (ht₁.symm.trans ht)]
    · rw [if_neg hk, tcps_setTcp_ne hk, ht]
  · rename_i hnone
    have hk : k ≠ j := fun hk => by
      rw [hk, ht] at hnone
      cases hnone
    rw [if_neg hk, ht]

/-- An OK for each registered connection. -/
theorem tcps_foldl_ok {f : WSNETWSInterface → Bytes → WSNETWSInterface} (ht : i.tcps[j]? = some t) (tokens : List Bytes)
    (hnone : ∀ i token, i.dispatch_table.get? token = none → f i token = i)
    (hsome : ∀ i token k, i.dispatch_table.get? token = some k → f i token = i.dispatch k (.OK { token })) :
    (tokens.foldl f i).tcps[j]? =
      some (((tokens.filter fun token => i.dispatch_table.get? token = some j).map fun token => .OK { token }).foldl
        onDataReceived t) := by
  induction tokens generalizing i t with
  | nil => exact ht
  | cons token tokens ih =>
    rw [List.foldl_cons]
    cases hk : i.dispatch_table.get? token with
    | none => rw [hnone i token hk, ih ht, List.filter_cons_of_neg (by simp [hk])]
    | some k =>
      rw [hsome i token k hk, ih (tcps_dispatch ht _), dispatch_table_dispatch]
      by_cases hkj : k = j
      · rw [if_pos hkj, List.filter_cons_of_pos (by simp [hk, hkj]), List.map_cons, List.foldl_cons]
      · rw [if_neg hkj, List.filter_cons_of_neg (by simp [hk, hkj])]

theorem tcps_terminate (ht : i.tcps[j]? = some t) :
    i.terminate.tcps[j]? = some ((i.deliveredIn j .terminate).foldl onDataReceived t) := by
  refine tcps_foldl_ok (i := { i with websocket := false }) ht _ (fun i token h => ?_) (fun i token k h => ?_)
  · simp only [h]
  · simp only [h]

theorem tcps_onData (ht : i.tcps[j]? = some t) (data : Bytes) :
    (i.onData data).tcps[j]? = some ((i.deliveredIn j (.onData data)).foldl onDataReceived t) := by
  cases hdata : CMD.fromBytes data with
  | error err =>
    simp only [onData, deliveredIn, hdata]
    exact ht
  | ok c =>
    cases hk : i.dispatch_table.get? c.token with
    | none =>
      simp only [onData, deliveredIn, hdata, hk]
      exact ht
    | some k =>
      simp only [onData, deliveredIn, hdata, hk, tcps_dispatch ht, Option.some.injEq]
      split <;> rfl

theorem tcps_terminateTcp (ht : i.tcps[j]? = some t) :
    (i.terminateTcp j t').tcps[j]? = some t'.terminated := by
  unfold terminateTcp
  split <;> exact tcps_setTcp ht

theorem tcps_terminateTcp_ne (hk : k ≠ j) : (i.terminateTcp k t').tcps[j]? = i.tcps[j]? := by
  unfold terminateTcp
  split <;> exact tcps_setTcp_ne hk

theorem progress_tcpStep {e : TcpEvent} (h : TcpStep i j t e i' fs) (ht : i.tcps[j]? = some t) :
    ∃ t', i'.tcps[j]? = some t' ∧ Progress (e = .terminate) [] t t' := by
  cases h with
  | put data => exact ⟨_, tcps_setTcp ht, .of_eq rfl rfl rfl rfl⟩
  | outEnd out_q | out data out_q | outLater data out_q | outOpened data | outTimeout data =>
    exact ⟨_, tcps_setTcp ht, .of_eq rfl rfl rfl rfl⟩
  | run token hpc => exact ⟨_, tcps_setTcp ht, .of_registered token (pending_of_eq hpc (by simp))⟩
  | opened token hpc | openTimeout token hpc =>
    exact ⟨_, tcps_setTcp ht, .of_registered token (pending_of_eq hpc (by simp))⟩
  | runLater token hpc =>
    refine ⟨_, tcps_setTcp ht, by simp, fun ok hok => ?_, fun _ _ => rfl, fun _ _ => rfl, fun _ _ b hb => ?_⟩
    · rw [hpc] at hok
      cases hok
    · cases hb
  | resume hpc => exact ⟨_, tcps_setTcp ht, .of_returned true (pending_of_eq hpc (by simp)) rfl rfl⟩
  | failRun b he hpc =>
    exact ⟨_, tcps_terminateTcp ht, .of_returned false (pending_of_eq hpc (by simp)) rfl rfl⟩
  | terminate => exact ⟨_, tcps_terminateTcp ht, .of_terminated rfl⟩

theorem tcps_tcpStep_ne {e : TcpEvent} (h : TcpStep i k t e i' fs) (hk : k ≠ j) : i'.tcps[j]? = i.tcps[j]? := by
  cases h with
  | failRun | terminate => exact tcps_terminateTcp_ne hk
  | _ => exact tcps_setTcp_ne hk

theorem progress_step (h : i.step e = some (i', fs)) (ht : i.tcps[j]? = some t) :
    ∃ t', i'.tcps[j]? = some t' ∧ Progress (e = .tcp j .terminate) (i.deliveredIn j e) t t' := by
  cases e with
  | onOpen | onClose | onError =>
    cases h
    exact ⟨t, ht, .refl t⟩
  | onData data =>
    cases h
    exact ⟨_, tcps_onData ht data, (progress_foldl _ t).congr (by simp)⟩
  | terminate =>
    cases h
    exact ⟨_, tcps_terminate ht, (progress_foldl _ t).congr (by simp)⟩
  | create ip port =>
    cases h
    exact ⟨t, by rw [← ht]; exact List.getElem?_append_left (List.getElem?_eq_some_iff.1 ht).1, .refl t⟩
  | tcp k e =>
    simp only [step] at h
    cases htk : i.tcps[k]? with
    | none => simp [htk] at h
    | some tk =>
      simp only [htk] at h
      by_cases hk : k = j
      · subst hk
        cases htk.symm.trans ht
        obtain ⟨t', ht', hp⟩ := progress_tcpStep (tcpStep_of_step h) ht
        exact ⟨t', ht', hp.congr (by simp)⟩
      · exact ⟨t, (tcps_tcpStep_ne (tcpStep_of_step h) hk).trans ht, .refl t⟩
  | sendOk n =>
    simp only [step] at h
    split at h
    · split at h
      · cases h
        exact ⟨t, ht, .refl t⟩
      · cases h
    · cases h
  | okTimeout n =>
    simp only [step] at h
    split at h
    · cases h
      exact ⟨t, ht, .refl t⟩
    · cases h

theorem progress_run (h : Run step i es i' fs) (ht : i.tcps[j]? = some t) :
    ∃ t', i'.tcps[j]? = some t' ∧ Progress (.tcp j .terminate ∈ es) (i.delivered j es) t t' := by
  induction h generalizing t with
  | nil i => exact ⟨t, ht, .refl t⟩
  | cons hs _ ih =>
    obtain ⟨t₁, ht₁, hp₁⟩ := progress_step hs ht
    obtain ⟨t₂, ht₂, hp₂⟩ := ih ht₁
    refine ⟨t₂, ht₂, ?_⟩
    simp only [delivered, hs]
    exact (hp₁.trans hp₂).congr (by rw [List.mem_cons, eq_comm])

theorem delivered_append (h : Run step i es₁ i₁ fs) :
    i.delivered j (es₁ ++ es₂) = i.delivered j es₁ ++ i₁.delivered j es₂ := by
  induction h with
  | nil i => rfl
  | cons hs _ ih => simp only [List.cons_append, delivered, hs, ih, List.append_assoc]

/-- `run` resumes when it has been woken, and returns. -/
theorem step_resume (ht : i.tcps[j]? = some t) : (∃ r, i.step (.tcp j .resume) = some r) ↔ t.runPc = .waiting true := by
  simp only [step, ht, stepTcp]
  split
  · rename_i hpc
    refine iff_of_true ?_ hpc
    split <;> exact ⟨_, rfl⟩
  · rename_i hpc
    exact iff_of_false (by simp) hpc

theorem returned_resumed (ht : i.tcps[j]? = some t) (h : i.step (.tcp j .resume) = some (i', fs)) :
    ∃ t', i'.tcps[j]? = some t' ∧ t'.runPc = .returned t.resumed.1 := by
  simp only [step, ht, stepTcp, if_pos ((step_resume ht).1 ⟨_, h⟩)] at h
  cases he : t.last_error with
  | none =>
    simp only [he, Option.isSome_none, Bool.false_eq_true, if_false, Option.some.injEq, Prod.mk.injEq] at h
    rw [← h.1]
    exact ⟨_, tcps_setTcp ht, by simp [resumed, he]⟩
  | some err =>
    simp only [he, Option.isSome_some, if_true, Option.some.injEq, Prod.mk.injEq] at h
    rw [← h.1]
    exact ⟨_, tcps_terminateTcp ht, by simp [terminated, resumed, he]⟩

/-- A connection that has been made, the events until its `run` gets to resume, and those after. -/
structure Resumes (j : Nat) (i : WSNETWSInterface) (es₁ : List Event) (i₁ : WSNETWSInterface) (es₂ : List Event)
    (i₂ : WSNETWSInterface) : Prop where
  made : ∃ ip port, i.tcps[j]? = some { ip, port }
  before : ∃ fs, Run step i es₁ i₁ fs
  stays : .tcp j .terminate ∉ es₁
  after : ∃ fs, Run step i₁ (.tcp j .resume :: es₂) i₂ fs

/-- What `run` returns, and what is in `in_q` at the end. -/
def Outcome (j : Nat) (i₁ i₂ : WSNETWSInterface) (result : Bool × Option String) (in_q : List InItem) : Prop :=
  ∃ t₁ t₂, i₁.tcps[j]? = some t₁ ∧ i₂.tcps[j]? = some t₂ ∧ t₁.resumed = result ∧ t₂.runPc = .returned result.1 ∧
    t₂.in_q = in_q

theorem Resumes.outcome (h : Resumes j i es₁ i₁ es₂ i₂) : ∃ err,
    err = ((i.delivered j es₁).filterMap endText).getLast? ∧ Outcome j i₁ i₂ (err.isNone, err)
      ((i.delivered j (es₁ ++ .tcp j .resume :: es₂)).filterMap InItem.received) := by
  obtain ⟨⟨ip, port, ht⟩, ⟨fs₁, h₁⟩, hstays, ⟨fs₂, h₂⟩⟩ := h
  obtain ⟨t₁, ht₁, hp₁⟩ := progress_run h₁ ht
  obtain ⟨t₂, ht₂, hp₂⟩ := progress_run h₂ ht₁
  cases h₂ with
  | cons hs hrun =>
    obtain ⟨t', ht', hret⟩ := returned_resumed ht₁ hs
    obtain ⟨t₂', ht₂', hp⟩ := progress_run hrun ht'
    cases ht₂.symm.trans ht₂'
    have hpending : t₁.Pending := pending_of_eq ((step_resume ht₁).1 ⟨_, hs⟩) (by simp)
    have herr : t₁.last_error = ((i.delivered j es₁).filterMap endText).getLast? := by
      rw [hp₁.last_error hstays hpending, Option.or_none]
    refine ⟨t₁.last_error, herr, t₁, t₂, ht₁, ht₂, rfl, hp.returned _ hret, ?_⟩
    rw [hp₂.in_q, hp₁.in_q, delivered_append h₁, List.filterMap_append]
    rfl

theorem woken_eq {ip : String} {port : Int} (ht : i.tcps[j]? = some { ip, port }) (h : Run step i es i' fs)
    (hstays : .tcp j .terminate ∉ es) (ht' : i'.tcps[j]? = some t') {b : Bool} (hpc : t'.runPc = .waiting b) :
    b = (i.delivered j es).any wakes := by
  obtain ⟨t'', ht'', hp⟩ := progress_run h ht
  cases ht'.symm.trans ht''
  rw [hp.woken hstays (by simp) b hpc, hp.established hstays (pending_of_eq hpc (by simp)), Bool.or_false]

theorem Resumes.has_answer (h : Resumes j i es₁ i₁ es₂ i₂) : (i.delivered j es₁).any wakes = true := by
  obtain ⟨⟨ip, port, ht⟩, ⟨fs₁, h₁⟩, hstays, ⟨fs₂, h₂⟩⟩ := h
  obtain ⟨t₁, ht₁, -⟩ := progress_run h₁ ht
  cases h₂ with
  | cons hs _ => exact (woken_eq ht h₁ hstays ht₁ ((step_resume ht₁).1 ⟨_, hs⟩)).symm

/-- When there is one message only, it has come before `run` resumes. -/
theorem Resumes.delivered_single {c : CMD} (h : Resumes j i es₁ i₁ es₂ i₂)
    (hall : i.delivered j (es₁ ++ .tcp j .resume :: es₂) = [c]) : i.delivered j es₁ = [c] := by
  have hne : i.delivered j es₁ ≠ [] := fun hnil => by simpa [hnil] using h.has_answer
  obtain ⟨fs₁, h₁⟩ := h.before
  rw [delivered_append h₁, List.append_eq_singleton_iff] at hall
  rcases hall with ⟨hnil, -⟩ | ⟨hone, -⟩
  · exact absurd hnil hne
  · exact hone

theorem Outcome.result_eq {r r' : Bool × Option String} {q q' : List InItem} (h : Outcome j i₁ i₂ r q)
    (h' : Outcome j i₁ i₂ r' q') : r = r' := by
  obtain ⟨t₁, t₂, ht₁, -, hr, -⟩ := h
  obtain ⟨t₁', t₂', ht₁', -, hr', -⟩ := h'
  cases ht₁.symm.trans ht₁'
  exact hr.symm.trans hr'

theorem received_accepted (k : WSNContinue) (sds : List WSNSocketData) {last : Option CMD}
    (hlast : ∀ c ∈ last, c.type = .OK ∨ c.type = .ERR) :
    (CMD.CONTINUE k :: sds.map CMD.SD ++ last.toList).filterMap InItem.received =
      sds.map (fun d => .data d.data) ++ (last.bind endText).toList.map .ended := by
  have hsd : (sds.map CMD.SD).filterMap InItem.received = sds.map fun d => .data d.data := by
    rw [List.filterMap_map]
    exact congrFun (List.filterMap_eq_map (f := fun d : WSNSocketData => InItem.data d.data)) sds
  have hend : last.toList.filterMap InItem.received = (last.bind endText).toList.map .ended := by
    cases last with
    | none => rfl
    | some c =>
      obtain ⟨err, herr⟩ := exists_endText (hlast c rfl)
      simp [InItem.received, herr]
  rw [List.filterMap_append, List.filterMap_cons_none (show InItem.received (.CONTINUE k) = none from rfl), hsd, hend]

/-- A connection that the agent accepts is accepted if and only if the OK or ERR that ends it is not delivered
before `run` resumes; one that it refuses is refused; and `run` resumes once it has an answer. -/
theorem run_accepted_iff (j : Nat) (i : WSNETWSInterface) :
    (∀ (es₁ : List Event) (i₁ : WSNETWSInterface) (es₂ : List Event) (i₂ : WSNETWSInterface),
      Resumes j i es₁ i₁ es₂ i₂ →
      (∀ (k : WSNContinue) (sds : List WSNSocketData) (last : Option CMD),
        (∀ c ∈ last, c.type = .OK ∨ c.type = .ERR) →
        i.delivered j (es₁ ++ .tcp j .resume :: es₂) = .CONTINUE k :: sds.map CMD.SD ++ last.toList →
        (Outcome j i₁ i₂ (true, none) (sds.map (fun d => .data d.data) ++ (last.bind endText).toList.map .ended) ↔
          ∀ c ∈ i.delivered j es₁, c.type ≠ .OK ∧ c.type ≠ .ERR)) ∧
      ∀ c, c.type = .OK ∨ c.type = .ERR → i.delivered j (es₁ ++ .tcp j .resume :: es₂) = [c] →
        ∃ err, endText c = some err ∧ Outcome j i₁ i₂ (false, some err) [.ended err]) ∧
    ∀ (es : List Event) (i' : WSNETWSInterface) (fs : List Bytes) (ip : String) (port : Int) (t : WSNetworkTCP)
      (b : Bool), i.tcps[j]? = some { ip, port } → Run step i es i' fs →
      .tcp j .terminate ∉ es → i'.tcps[j]? = some t → t.runPc = .waiting b →
      (∃ c ∈ i.delivered j es, c.type = .CONTINUE ∨ c.type = .OK ∨ c.type = .ERR) →
        ∃ r, i'.step (.tcp j .resume) = some r := by
  refine ⟨fun es₁ i₁ es₂ i₂ h => ⟨fun k sds last hlast hall => ?_, fun c hc hall => ?_⟩, ?_⟩
  · obtain ⟨err, herr, hout⟩ := h.outcome
    rw [hall, received_accepted k sds hlast] at hout
    have hnone : err = none ↔ ∀ c ∈ i.delivered j es₁, c.type ≠ .OK ∧ c.type ≠ .ERR := by
      simp only [herr, List.getLast?_eq_none_iff, List.filterMap_eq_nil_iff, endText_eq_none]
    rw [← hnone]
    constructor
    · intro h'
      exact (congrArg Prod.snd (hout.result_eq h'))
    · rintro rfl
      exact hout
  · obtain ⟨err, herr⟩ := exists_endText hc
    obtain ⟨err', herr', hout⟩ := h.outcome
    rw [hall] at hout
    rw [h.delivered_single hall] at herr'
    simp only [List.filterMap_cons_some herr, List.filterMap_nil, List.getLast?_singleton] at herr'
    subst herr'
    refine ⟨err, herr, ?_⟩
    simpa [InItem.received, herr] using hout
  · intro es i' fs ip port t b ht h hstays ht' hpc hc
    obtain ⟨c, hmem, hc⟩ := hc
    refine (step_resume ht').2 ?_
    rw [hpc, woken_eq ht h hstays ht' hpc, List.any_eq_true.2 ⟨c, hmem, wakes_of_type hc⟩]

/-! ### A server that closes at once -/

def solePage : WSNETWSInterface := { established := true, tcps := [{ ip := "10.0.0.1", port := 80 }] }

def soleToken : Bytes := List.replicate 16 9

def soleContinue : Bytes := [0, 0, 0, 26, 0, 4] ++ soleToken ++ [0, 0, 0, 0]

def soleData : Bytes := [0, 0, 0, 24, 0, 7] ++ soleToken ++ [1, 2]

def soleOk : Bytes := [0, 0, 0, 26, 0, 0] ++ soleToken ++ [0, 0, 0, 0]

def soleOpens : List Event := [.tcp 0 (.run soleToken), .onData soleContinue]

/-- The OK comes when `run` has resumed; or it is the only answer. -/
theorem run_accepted_page :
    (∃ i₁ i₂, Resumes 0 solePage soleOpens i₁ [.onData soleData, .onData soleOk] i₂ ∧
      Outcome 0 i₁ i₂ (true, none) [.data [1, 2], .ended "Remote end terminated the socket"]) ∧
    (∃ i₁ i₂, Resumes 0 solePage [.tcp 0 (.run soleToken), .onData soleOk] i₁ [] i₂ ∧
      ∃ err, Outcome 0 i₁ i₂ (false, some err) [.ended err]) ∧
    ∃ i' fs, Run step solePage soleOpens i' fs ∧ ∃ r, i'.step (.tcp 0 .resume) = some r := by
  obtain ⟨hresumes, hwoken⟩ := run_accepted_iff 0 solePage
  have haccepted : ∃ i₁ i₂, Resumes 0 solePage soleOpens i₁ [.onData soleData, .onData soleOk] i₂ :=
    ⟨_, _, ⟨_, _, rfl⟩, ⟨_, .of_exec rfl⟩, by simp [soleOpens], ⟨_, .of_exec rfl⟩⟩
  have hrefused : ∃ i₁ i₂, Resumes 0 solePage [.tcp 0 (.run soleToken), .onData soleOk] i₁ [] i₂ :=
    ⟨_, _, ⟨_, _, rfl⟩, ⟨_, .of_exec rfl⟩, by simp, ⟨_, .of_exec rfl⟩⟩
  obtain ⟨i₁, i₂, haccepted⟩ := haccepted
  obtain ⟨i₃, i₄, hrefused⟩ := hrefused
  refine ⟨⟨i₁, i₂, haccepted, ?_⟩, ⟨i₃, i₄, hrefused, ?_⟩, ?_⟩
  · have h := (hresumes _ i₁ _ i₂ haccepted).1 { token := soleToken }
      [{ token := soleToken, data := [1, 2] }] (some (.OK { token := soleToken })) (by simp [CMD.type]) rfl
    refine h.2 fun c hc => ?_
    cases List.mem_singleton.1 (show c ∈ [CMD.CONTINUE { token := soleToken }] from hc)
    simp [CMD.type]
  · obtain ⟨err, -, h⟩ := (hresumes _ i₃ _ i₄ hrefused).2 (.OK { token := soleToken }) (.inl rfl) rfl
    exact ⟨err, h⟩
  · refine ⟨_, _, .of_exec rfl, ?_⟩
    exact hwoken soleOpens _ _ "10.0.0.1" 80 _ true rfl (.of_exec rfl)
      (by simp [soleOpens]) rfl rfl ⟨.CONTINUE { token := soleToken }, List.mem_cons_self, .inl rfl⟩

/-- CONTINUE and OK both come before. -/
theorem not_accepted_page : ∃ i₁ i₂,
    Resumes 0 solePage (soleOpens ++ [.onData soleOk]) i₁ [] i₂ ∧
      solePage.delivered 0 (soleOpens ++ [.onData soleOk, .tcp 0 .resume]) =
        [.CONTINUE { token := soleToken }, .OK { token := soleToken }] ∧
      ¬ Outcome 0 i₁ i₂ (true, none) [.ended "Remote end terminated the socket"] := by
  refine ⟨_, _, ⟨⟨_, _, rfl⟩, ⟨_, .of_exec rfl⟩, by simp [soleOpens], ⟨_, .of_exec rfl⟩⟩, rfl, ?_⟩
  rintro ⟨t₁, t₂, ht₁, -, hres, -⟩
  cases ht₁
  cases hres

end WSNETWSInterface

end Wsnet.Pyodide
