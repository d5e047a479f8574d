import Wsnet.Lib.LastWord
import Wsnet.Pyodide.Closing
import Wsnet.Pyodide.Established

/-!
# The OK of a connection that is closed on this side

`connection_handler_out` and the `__handle_out` of `WSNetworkUDP` send an OK in their `finally` block, the
`__handle_out` of `WSNetworkTCP` has none. What the block sends still has to find the websocket:
`WSNetworkUDP.terminate` cancels the task and deletes the websocket in one go, so that the cancelled task comes
to its `finally` block without it.
-/

namespace Wsnet.Pyodide

open WSNETConnection (HandlerTask okFrames handlerOut)

section Frames
variable {token ok f : Bytes} {c : CMD}

theorem not_ok_of_type (hok : (CMD.OK { token }).toBytes = .ok ok) (hc : c.toBytes = .ok f) (ht : c.type ≠ .OK) :
    ok ≠ f := by
  rintro rfl
  exact ht (CMD.type_eq_of_toBytes hc hok)

theorem not_mem_frames {mk : Bytes → CMD} (hok : (CMD.OK { token }).toBytes = .ok ok) (hmk : ∀ p, (mk p).type ≠ .OK)
    (ps : List Bytes) : ok ∉ (frames mk ps).1 := by
  intro hmem
  obtain ⟨p, -, hp⟩ := exists_of_mem_frames hmem
  exact not_ok_of_type hok hp (hmk p) rfl

theorem not_mem_trySend (hok : (CMD.OK { token }).toBytes = .ok ok) (ht : c.type ≠ .OK) : ok ∉ trySend c :=
  fun hmem => not_ok_of_type hok (mem_trySend.1 hmem) ht rfl

theorem exists_toBytes_ok (ht : token.length = 16) : ∃ ok, (CMD.OK { token }).toBytes = .ok ok := by
  obtain ⟨ok, hok, -⟩ := WSNETConnection.okFrames_eq ht
  refine ⟨ok, mem_trySend.1 ?_⟩
  rw [← okFrames, hok]
  exact List.mem_singleton_self ok

theorem not_mem_ok (ht : token.length = 16) (hok : (CMD.OK { token }).toBytes = .ok ok) {token' : Bytes}
    (hne : token ≠ token') : ok ∉ trySend (.OK { token := token' }) := by
  intro hmem
  have hok' := mem_trySend.1 hmem
  have hlen : token'.length = 16 := by
    have h := (CMD.length_of_toBytes hok).symm.trans (CMD.length_of_toBytes hok')
    rw [WSNETConnection.frameLength_OK, WSNETConnection.frameLength_OK] at h
    omega
  exact hne ((CMD.token_slice hok ht).symm.trans (CMD.token_slice hok' hlen))

end Frames

/-! ### `WSNetworkUDP` -/

namespace WSNetworkUDP

/-- An item of `out_q`: `None`, or data and the address. -/
abbrev Outgoing := Option (Option Bytes × String × Int)

/-- `__handle_out` of a connection whose websocket does not close by itself. -/
structure OutTask where
  token : Bytes
  /-- `self.ws` is not `None` -/
  ws : Bool := true
  out_q : List Outgoing := []
  out_task : HandlerTask := {}
  deriving DecidableEq, Repr

inductive OutEvent
  | put (outgoing_struct : Outgoing)
  /-- the task runs for the first time -/
  | start
  /-- it takes an item; with `some n`, the send behind the first `n` messages raises -/
  | item (raises : Option Nat)
  /-- it has been cancelled, and runs -/
  | cancelled
  /-- `terminate` runs, which somebody calls or `__handle_in` at its end -/
  | terminate
  deriving DecidableEq, Repr

namespace OutTask

def terminate (s : OutTask) : OutTask := { s with ws := false, out_task := s.out_task.cancel }

/-- What `sendWebSocketData` has been given. -/
def emit (s : OutTask) (fs : List Bytes) : List Bytes := if s.ws then fs else []

/-- The `finally` block. -/
def finish (s : OutTask) : OutTask × List Bytes :=
  ({ s.terminate with out_task := { pc := .done } }, s.emit (okFrames s.token))

def taken (s : OutTask) (outgoing_struct : Outgoing) (raises : Option Nat) : OutTask × List Bytes :=
  match outgoing_struct with
  | none | some (none, _) | some (some [], _) => s.finish
  | some (some data, addr) =>
    match raises, handleOut s.token data addr with
    | some n, (sent, _) => (s.finish.1, s.emit (sent.take n) ++ s.finish.2)
    | none, (sent, some _) => (s.finish.1, s.emit sent ++ s.finish.2)
    | none, (sent, none) => (s, s.emit sent)

def step (s : OutTask) : OutEvent → Option (OutTask × List Bytes)
  | .put outgoing_struct => some ({ s with out_q := s.out_q ++ [outgoing_struct] }, [])
  | .start => if s.out_task = {} then some ({ s with out_task := { pc := .waiting } }, []) else none
  | .item raises =>
    if s.out_task = { pc := .waiting } then
      match s.out_q with
      | [] => none
      | item :: rest => some ({ s with out_q := rest }.taken item raises)
    else none
  | .cancelled =>
    if s.out_task.cancelled then
      -- a task that is cancelled before it has run does not enter its `try`
      if s.out_task.pc = .waiting then some s.finish else some ({ s with out_task := { pc := .done } }, [])
    else none
  | .terminate => some (s.terminate, [])

variable {token ok : Bytes} {s s' : OutTask} {e : OutEvent} {o : List Bytes}

theorem not_mem_handleOut (hok : (CMD.OK { token }).toBytes = .ok ok) (data : Bytes) (addr : String × Int) :
    ok ∉ (handleOut s.token data addr).1 := by
  unfold handleOut
  split
  · simp
  · exact not_mem_frames hok (fun p => by simp [CMD.type]) _

structure Works (token : Bytes) (s : OutTask) : Prop where
  token : s.token = token
  ws : s.ws = true
  waiting : s.out_task.pc = .waiting

structure Over (s : OutTask) : Prop where
  ws : s.ws = false
  done : s.out_task = { pc := .done }

/-- The task has not ended when `terminate` runs. -/
def Loses (s : OutTask) (e : OutEvent) : Prop := e = .terminate ∧ s.out_task.pc ≠ .done

theorem over_finish (s : OutTask) : Over s.finish.1 := ⟨rfl, rfl⟩

theorem finish_sends (hok : (CMD.OK { token }).toBytes = .ok ok) (h : Works token s) : s.finish.2 = [ok] := by
  simp only [finish, emit, h.ws, if_true, okFrames, h.token]
  exact trySend_eq hok

theorem saidLast_finish (hok : (CMD.OK { token }).toBytes = .ok ok) (h : Works token s) {fs : List Bytes}
    (hfs : ok ∉ fs) : SaidLast ok (s.emit fs ++ s.finish.2) := by
  rw [finish_sends hok h, emit, if_pos h.ws]
  exact saidLast_concat hfs

theorem taken_spec (hok : (CMD.OK { token }).toBytes = .ok ok) (h : Works token s) (item : Outgoing)
    (raises : Option Nat) :
    (s.taken item raises).1 = s ∧ ok ∉ (s.taken item raises).2 ∨
      Over (s.taken item raises).1 ∧ SaidLast ok (s.taken item raises).2 := by
  have hfinish : Over s.finish.1 ∧ SaidLast ok s.finish.2 := by
    refine ⟨over_finish s, ?_⟩
    rw [finish_sends hok h]
    exact saidLast_singleton ok
  have hsent : ∀ {data addr sent err}, handleOut s.token data addr = (sent, err) → ok ∉ sent := by
    intro data addr sent err heq
    have hnot := not_mem_handleOut (s := s) hok data addr
    rwa [heq] at hnot
  fun_cases taken s item raises
  case case1 => exact .inr hfinish
  case case2 => exact .inr hfinish
  case case3 => exact .inr hfinish
  case case4 n sent err heq =>
    exact .inr ⟨over_finish s, saidLast_finish hok h fun hmem => hsent heq (List.mem_of_mem_take hmem)⟩
  case case5 sent err heq => exact .inr ⟨over_finish s, saidLast_finish hok h (hsent heq)⟩
  case case6 sent heq =>
    refine .inl ⟨rfl, ?_⟩
    rw [emit, if_pos h.ws]
    exact hsent heq

theorem works_of_step (hok : (CMD.OK { token }).toBytes = .ok ok) (h : Works token s) (hs : s.step e = some (s', o)) :
    Works token s' ∧ ok ∉ o ∧ ¬ Loses s e ∨ Over s' ∧ SaidLast ok o ∧ ¬ Loses s e ∨
      s'.ws = false ∧ ok ∉ o ∧ Loses s e := by
  have hw := h.waiting
  cases e with
  | put item =>
    cases hs
    exact .inl ⟨⟨h.token, h.ws, hw⟩, by simp, by simp [Loses]⟩
  | start =>
    simp only [step] at hs
    split_ifs at hs with hnew
    rw [hnew] at hw
    cases hw
  | item raises =>
    simp only [step] at hs
    split_ifs at hs
    split at hs
    · cases hs
    · rename_i item rest hq
      have hspec := taken_spec (s := { s with out_q := rest }) hok ⟨h.token, h.ws, hw⟩ item raises
      rw [Option.some.inj hs] at hspec
      rcases hspec with ⟨hsame, hnot⟩ | ⟨hover, hlast⟩
      · exact .inl ⟨by rw [show s' = _ from hsame]; exact ⟨h.token, h.ws, hw⟩, hnot, by simp [Loses]⟩
      · exact .inr (.inl ⟨hover, hlast, by simp [Loses]⟩)
  | cancelled =>
    simp only [step] at hs
    split_ifs at hs
    have hfinish := over_finish s
    have hlast : SaidLast ok s.finish.2 := by
      rw [finish_sends hok h]
      exact saidLast_singleton ok
    rw [Option.some.inj hs] at hfinish hlast
    exact .inr (.inl ⟨hfinish, hlast, by simp [Loses]⟩)
  | terminate =>
    cases hs
    exact .inr (.inr ⟨rfl, by simp, rfl, by simp [hw]⟩)

theorem emit_of_lost (h : s.ws = false) (fs : List Bytes) : s.emit fs = [] := by simp [emit, h]

theorem finish_of_lost (h : s.ws = false) : s.finish.1.ws = false ∧ s.finish.2 = [] := ⟨rfl, emit_of_lost h _⟩

theorem taken_of_lost (h : s.ws = false) (item : Outgoing) (raises : Option Nat) :
    (s.taken item raises).1.ws = false ∧ (s.taken item raises).2 = [] := by
  have hfinish := finish_of_lost h
  fun_cases taken s item raises
  case case1 | case2 | case3 => exact hfinish
  case case4 | case5 => exact ⟨rfl, by rw [emit_of_lost h, hfinish.2, List.append_nil]⟩
  case case6 => exact ⟨h, emit_of_lost h _⟩

/-- Nothing is sent without a websocket. -/
theorem lost_of_step (h : s.ws = false) (hs : s.step e = some (s', o)) : s'.ws = false ∧ o = [] := by
  cases e with
  | put | terminate =>
    cases hs
    exact ⟨by simp [h, terminate], rfl⟩
  | start =>
    simp only [step] at hs
    split_ifs at hs
    cases hs
    exact ⟨h, rfl⟩
  | item raises =>
    simp only [step] at hs
    split_ifs at hs
    split at hs
    · cases hs
    · rename_i item rest hq
      have hlost := taken_of_lost (s := { s with out_q := rest }) h item raises
      rwa [Option.some.inj hs] at hlost
  | cancelled =>
    simp only [step] at hs
    split_ifs at hs
    · have hlost := finish_of_lost h
      rwa [Option.some.inj hs] at hlost
    · cases hs
      exact ⟨h, rfl⟩

theorem over_of_step (h : Over s) (hs : s.step e = some (s', o)) : Over s' ∧ o = [] ∧ ¬ Loses s e := by
  obtain ⟨hws, rfl⟩ := lost_of_step h.ws hs
  have hdone : s'.out_task = { pc := .done } := by
    cases e with
    | put =>
      cases hs
      exact h.done
    | terminate =>
      cases hs
      simp [terminate, h.done, HandlerTask.cancel]
    | start | item | cancelled => simp [step, h.done] at hs
  exact ⟨⟨hws, hdone⟩, rfl, fun hloses => hloses.2 (by rw [h.done])⟩

theorem lastWord (hok : (CMD.OK { token }).toBytes = .ok ok) :
    LastWord step ok (Works token) Over (fun s => s.ws = false) Loses where
  works := works_of_step hok
  ended := over_of_step
  lost h hs := by
    obtain ⟨hws, rfl⟩ := lost_of_step h hs
    exact ⟨hws, by simp⟩

end OutTask

end WSNetworkUDP

/-! ### `WSNETConnection` -/

namespace WSNETConnection.Closing

/-- What `connection_handler_out` sends in a step; when the send of an item raises, it does so behind the first `n`
messages. The websocket does not close by itself. -/
def sends (token : Bytes) (s : Closing) (n : Nat) : CloseEvent → List Bytes
  | .start .handlerOut => if s.disconnected_evt then okFrames token else []
  | .cancelled .handlerOut => if s.conn_out_task.pc = .waiting then okFrames token else []
  | .item raises =>
    match s.out_q with
    | [] => []
    | none :: _ | some [] :: _ => okFrames token
    | some data :: _ =>
      if raises then (handlerOut token data).1.take n ++ okFrames token
      else (handlerOut token data).1 ++ if s.disconnected_evt then okFrames token else []
  | _ => []

/-- The steps with what they send. -/
def stepSends (token : Bytes) (s : Closing) (e : CloseEvent × Nat) : Option (Closing × List Bytes) :=
  (s.step e.1).map fun r => (r.1, s.sends token e.2 e.1)

variable {token ok : Bytes} {s s' : Closing} {e : CloseEvent × Nat} {o : List Bytes} {cs : List Callback}

theorem not_mem_handlerOut (hok : (CMD.OK { token }).toBytes = .ok ok) (data : Bytes) :
    ok ∉ (handlerOut token data).1 := by
  unfold handlerOut
  split
  · simp
  · exact not_mem_frames hok (fun p => by simp [CMD.type]) _

theorem taken_sends (hok : (CMD.OK { token }).toBytes = .ok ok) {item : Option Bytes} {rest : List (Option Bytes)}
    (hq : s.out_q = item :: rest) (raises : Bool) (n : Nat) :
    ({ s with out_q := rest }.taken item raises).1.conn_out_task.pc = .waiting ∧ ok ∉ s.sends token n (.item raises) ∨
      ({ s with out_q := rest }.taken item raises).1.conn_out_task = { pc := .done } ∧
        SaidLast ok (s.sends token n (.item raises)) := by
  have hframes : okFrames token = [ok] := trySend_eq hok
  unfold taken
  split_ifs with hend
  · refine .inr ⟨rfl, ?_⟩
    rcases item with _ | _ | ⟨b, data⟩
    · simp only [sends, hq, hframes]
      exact saidLast_singleton ok
    · simp only [sends, hq, hframes]
      exact saidLast_singleton ok
    · have hraises : raises = true := by simpa using hend
      simp only [sends, hq, hraises, if_true, hframes]
      exact saidLast_concat fun hmem => not_mem_handlerOut hok _ (List.mem_of_mem_take hmem)
  · obtain ⟨b, data, rfl, hraises⟩ : ∃ b data, item = some (b :: data) ∧ raises = false := by
      rcases item with _ | _ | ⟨b, data⟩
      · simp at hend
      · simp at hend
      · exact ⟨b, data, rfl, by simpa using hend⟩
    have hnot := not_mem_handlerOut hok (b :: data)
    simp only [sends, hq, hraises, Bool.false_eq_true, if_false, hframes, loop]
    cases s.disconnected_evt with
    | true => exact .inr ⟨rfl, saidLast_concat hnot⟩
    | false => exact .inl ⟨rfl, by simpa using hnot⟩

/-- A task that others leave alone, or cancel. -/
def Spared (t t' : HandlerTask) : Prop := t' = t ∨ t' = t.cancel

theorem Spared.pc {t t' : HandlerTask} (h : Spared t t') : t'.pc = t.pc := by
  rcases h with rfl | rfl <;> rfl

theorem Spared.done {t' : HandlerTask} (h : Spared { pc := .done } t') : t' = { pc := .done } := by
  rcases h with rfl | rfl <;> rfl

theorem spared_loop (s : Closing) : Spared s.conn_out_task (s.loop .handlerIn).1.conn_out_task := by
  unfold loop
  split
  · exact .inr rfl
  · exact .inl rfl

theorem spared_received (s : Closing) (frame : Bytes) (raises : Bool) :
    Spared s.conn_out_task (s.received frame raises).1.conn_out_task := by
  unfold received
  split
  · exact .inr rfl
  · exact .inr rfl
  · exact .inr rfl
  · split
    · exact .inr rfl
    · cases raises
      · exact spared_loop s
      · exact .inr rfl

/-- A step of `connection_handler_out` itself. -/
def ofHandlerOut : CloseEvent → Bool
  | .start .handlerOut | .cancelled .handlerOut | .item _ => true
  | _ => false

theorem spared_of_step (token : Bytes) {e : CloseEvent} (he : ofHandlerOut e = false) (hs : s.step e = some (s', cs)) :
    Spared s.conn_out_task s'.conn_out_task ∧ ∀ n, s.sends token n e = [] := by
  cases e with
  | arrives | disconnected | call | close =>
    cases hs
    exact ⟨.inl rfl, fun _ => rfl⟩
  | closeTask =>
    simp only [step] at hs
    split_ifs at hs
    cases hs
    exact ⟨.inr rfl, fun _ => rfl⟩
  | start h =>
    cases h with
    | handlerOut => cases he
    | handlerIn =>
      simp only [step] at hs
      split_ifs at hs
      have hspared := spared_loop s
      rw [Option.some.inj hs] at hspared
      exact ⟨hspared, fun _ => rfl⟩
  | cancelled h =>
    cases h with
    | handlerOut => cases he
    | handlerIn =>
      simp only [step] at hs
      split_ifs at hs
      · cases hs
        exact ⟨.inr rfl, fun _ => rfl⟩
      · cases hs
        exact ⟨.inl rfl, fun _ => rfl⟩
  | message raises =>
    simp only [step] at hs
    split_ifs at hs
    split at hs
    · cases hs
    · rename_i frame rest hq
      have hspared := spared_received { s with internal_in_q := rest } frame raises
      rw [Option.some.inj hs] at hspared
      exact ⟨hspared, fun _ => rfl⟩
  | item raises => cases he

theorem work_of_step (hok : (CMD.OK { token }).toBytes = .ok ok) (hw : s.conn_out_task.pc = .waiting)
    (hs : s.stepSends token e = some (s', o)) :
    s'.conn_out_task.pc = .waiting ∧ ok ∉ o ∨ s'.conn_out_task = { pc := .done } ∧ SaidLast ok o := by
  obtain ⟨⟨s₁, cs⟩, hs₁, heq⟩ := Option.map_eq_some_iff.1 hs
  obtain ⟨rfl, rfl⟩ := Prod.mk.inj heq
  clear hs heq
  obtain ⟨e, n⟩ := e
  cases he : ofHandlerOut e with
  | false =>
    obtain ⟨hspared, hnone⟩ := spared_of_step token he hs₁
    exact .inl ⟨hspared.pc.trans hw, by simp [hnone n]⟩
  | true =>
    unfold ofHandlerOut at he
    split at he
    · simp only [step] at hs₁
      split_ifs at hs₁ with hnew
      rw [show s.conn_out_task = {} from hnew] at hw
      cases hw
    · simp only [step] at hs₁
      split_ifs at hs₁ with hc hpc
      · cases hs₁
        refine .inr ⟨rfl, ?_⟩
        simp only [sends, hw, if_true, okFrames, trySend_eq hok]
        exact saidLast_singleton ok
      · exact absurd hw hpc
    · rename_i raises
      simp only [step] at hs₁
      split_ifs at hs₁
      split at hs₁
      · cases hs₁
      · rename_i item rest hq
        have h := taken_sends hok hq raises n
        rwa [Option.some.inj hs₁] at h
    · cases he

theorem ended_of_step (hd : s.conn_out_task = { pc := .done }) (hs : s.stepSends token e = some (s', o)) :
    s'.conn_out_task = { pc := .done } ∧ o = [] := by
  obtain ⟨⟨s₁, cs⟩, hs₁, heq⟩ := Option.map_eq_some_iff.1 hs
  obtain ⟨rfl, rfl⟩ := Prod.mk.inj heq
  clear hs heq
  obtain ⟨e, n⟩ := e
  cases he : ofHandlerOut e with
  | false =>
    obtain ⟨hspared, hnone⟩ := spared_of_step token he hs₁
    exact ⟨(hd ▸ hspared).done, hnone n⟩
  | true =>
    unfold ofHandlerOut at he
    split at he
    · simp [step, task, hd] at hs₁
    · simp [step, task, hd] at hs₁
    · simp [step, hd] at hs₁
    · cases he

theorem lastWord (hok : (CMD.OK { token }).toBytes = .ok ok) :
    LastWord (stepSends token) ok (fun s => s.conn_out_task.pc = .waiting) (fun s => s.conn_out_task = { pc := .done })
      (fun _ => False) (fun _ _ => False) where
  works hw hs := by
    rcases work_of_step hok hw hs with ⟨hw', hnot⟩ | ⟨hd, hlast⟩
    · exact .inl ⟨hw', hnot, id⟩
    · exact .inr (.inl ⟨hd, hlast, id⟩)
  ended hd hs := by
    obtain ⟨hd', ho⟩ := ended_of_step hd hs
    exact ⟨hd', ho, id⟩
  lost h _ := h.elim

end WSNETConnection.Closing

/-! ### `WSNetworkTCP` -/

namespace WSNETWSInterface

/-- `run` has returned `(True, None)`, and `terminate` has not run. -/
structure HandlesOut (token : Bytes) (t : WSNetworkTCP) : Prop where
  has : t.token = some token
  returned : t.runPc = .returned true
  started : t.outPc ≠ .none

structure Foreign (token : Bytes) (t : WSNetworkTCP) : Prop where
  has : t.token ≠ some token
  registering : t.runPc ≠ .registering token

/-- Connection `j` has the token to itself, and `__handle_out` has started. -/
structure Sending (j : Nat) (token : Bytes) (i : WSNETWSInterface) : Prop where
  registered : i.dispatch_table.contains token = true
  oks : token ∉ i.oks
  own : ∃ t, i.tcps[j]? = some t ∧ HandlesOut token t
  others : ∀ (k : Nat) (t : WSNetworkTCP), k ≠ j → i.tcps[k]? = some t → Foreign token t

/-- The `__handle_out` of connection `j` has ended. -/
def OutEnded (j : Nat) (i : WSNETWSInterface) : Prop := ∃ t, i.tcps[j]? = some t ∧ t.outPc = .done

variable {token ok : Bytes} {i i' : WSNETWSInterface} {j k : Nat} {t t' : WSNetworkTCP} {e : Event} {es : List Event}
  {fs : List Bytes}

theorem HandlesOut.congr (h : HandlesOut token t) (ht : t'.token = t.token)
    (hr : t.runPc = .returned true → t'.runPc = .returned true) (ho : t'.outPc = t.outPc) : HandlesOut token t' :=
  ⟨ht.trans h.has, hr h.returned, ho ▸ h.started⟩

theorem runPc_onDataReceived (t : WSNetworkTCP) (c : CMD) {pc : WSNetworkTCP.RunPc} (hpc : ∀ b, pc ≠ .waiting b) :
    (t.onDataReceived c).runPc = pc ↔ t.runPc = pc := by
  fun_cases WSNetworkTCP.onDataReceived t c
  case case1 | case2 | case3 => exact WSNetworkTCP.runPc_establish _ pc hpc
  case case4 | case5 => exact Iff.rfl

theorem token_onDataReceived (t : WSNetworkTCP) (c : CMD) :
    (t.onDataReceived c).token = t.token ∧ (t.onDataReceived c).outPc = t.outPc := by
  fun_cases WSNetworkTCP.onDataReceived t c <;> exact ⟨rfl, rfl⟩

namespace Sending

theorem set (h : Sending j token i) (hk : i.tcps[k]? = some t) (hj : k = j → HandlesOut token t → HandlesOut token t')
    (hf : k ≠ j → Foreign token t → Foreign token t') {d : Dict Bytes Nat} (hd : d.contains token = true) :
    Sending j token ({ i with dispatch_table := d }.setTcp k t') := by
  obtain ⟨tj, htj, hown⟩ := h.own
  refine ⟨hd, h.oks, ?_, fun n x hn hx => ?_⟩
  · by_cases hkj : k = j
    · subst hkj
      cases hk.symm.trans htj
      exact ⟨t', tcps_setTcp (i := { i with dispatch_table := d }) hk, hj rfl hown⟩
    · exact ⟨tj, (tcps_setTcp_ne (i := { i with dispatch_table := d }) hkj).trans htj, hown⟩
  · by_cases hkn : k = n
    · subst hkn
      cases hx.symm.trans (tcps_setTcp (i := { i with dispatch_table := d }) hk)
      exact hf hn (h.others k t hn hk)
    · exact h.others n x hn ((tcps_setTcp_ne (i := { i with dispatch_table := d }) hkn).symm.trans hx)

theorem dispatch (h : Sending j token i) (c : CMD) : Sending j token (i.dispatch k c) := by
  unfold WSNETWSInterface.dispatch
  split
  · rename_i t hk
    obtain ⟨htoken, hout⟩ := token_onDataReceived t c
    refine h.set hk (fun _ hown => ?_) (fun _ hf => ⟨?_, ?_⟩) h.registered
    · exact hown.congr htoken (runPc_onDataReceived t c (by simp)).2 hout
    · exact htoken ▸ hf.has
    · exact fun hr => hf.registering ((runPc_onDataReceived t c (by simp)).1 hr)
  · exact h

theorem onData (h : Sending j token i) (data : Bytes) : Sending j token (i.onData data) := by
  unfold WSNETWSInterface.onData
  split
  · exact h
  · split
    · exact h.dispatch _
    · rename_i c _ hnone
      refine ⟨h.registered, fun hmem => ?_, h.own, h.others⟩
      rcases List.mem_append.1 hmem with hmem | hmem
      · exact h.oks hmem
      · obtain ⟨k, hk⟩ := Dict.contains_iff.1 h.registered
        rw [List.mem_singleton.1 hmem] at hk
        cases hnone.symm.trans hk

theorem terminate (h : Sending j token i) : Sending j token i.terminate := by
  have h0 : Sending j token { i with websocket := false } := ⟨h.registered, h.oks, h.own, h.others⟩
  refine List.foldlRecOn (motive := Sending j token) _ _ h0 fun i hi token' _ => ?_
  split
  · exact hi.dispatch _
  · exact hi

theorem tcpStep_own (h : Sending j token i) (hj : i.tcps[j]? = some t) {e : TcpEvent} (hs : TcpStep i j t e i' fs) :
    Sending j token i' ∨ i'.dispatch_table.contains token = false := by
  have hown : HandlesOut token t := by
    obtain ⟨t', ht', hown⟩ := h.own
    cases hj.symm.trans ht'
    exact hown
  have hset : ∀ {t'}, HandlesOut token t' → Sending j token (i.setTcp j t') := fun hown' =>
    h.set hj (fun _ _ => hown') (fun hne => absurd rfl hne) h.registered
  cases hs with
  | put | out => exact .inl (hset ⟨hown.has, hown.returned, hown.started⟩)
  | outEnd | outLater | outOpened | outTimeout => exact .inl (hset ⟨hown.has, hown.returned, by simp⟩)
  | terminate =>
    refine .inr ?_
    simp only [terminateTcp, hown.has]
    exact Dict.contains_eq_false_iff.2 (Dict.get?_del_self _ token)
  | run _ hpc | runLater _ hpc | opened _ hpc | openTimeout _ hpc | resume hpc | failRun _ _ hpc =>
    cases hpc.symm.trans hown.returned

/-- A connection that does not have the token takes it from nobody. -/
theorem tcpStep_other (h : Sending j token i) (hkj : k ≠ j) (hk : i.tcps[k]? = some t) {e : TcpEvent}
    (hfresh : e ≠ .run token) (hs : TcpStep i k t e i' fs) : Sending j token i' := by
  have hf : Foreign token t := h.others k t hkj hk
  have hset : ∀ {t'} {d : Dict Bytes Nat}, Foreign token t' → d.contains token = true →
      Sending j token ({ i with dispatch_table := d }.setTcp k t') := fun hf' hd =>
    h.set hk (fun heq => absurd heq hkj) (fun _ _ => hf') hd
  have hcontains : ∀ token' n, (i.dispatch_table.set token' n).contains token = true := fun token' n => by
    rw [Dict.contains_iff_mem_keys, Dict.mem_keys_set, ← Dict.contains_iff_mem_keys]
    exact .inr h.registered
  have hend : ∀ t' : WSNetworkTCP, t'.token = t.token → (∀ tok, t'.runPc ≠ .registering tok) ∨ t'.runPc = t.runPc →
      Sending j token (i.terminateTcp k t') := by
    intro t' htoken hpc
    have hf' : Foreign token t'.terminated := by
      refine ⟨by simp [WSNetworkTCP.terminated], fun hr => ?_⟩
      rcases hpc with hpc | hpc
      · exact hpc token hr
      · exact hf.registering (hpc.symm.trans hr)
    unfold terminateTcp
    split
    · rename_i token' htoken'
      have hdel : (i.dispatch_table.del token').contains token = true := by
        rw [Dict.contains_iff_mem_keys, Dict.mem_keys_del, ← Dict.contains_iff_mem_keys]
        exact ⟨fun heq => hf.has (by rw [← htoken, htoken', heq]), h.registered⟩
      exact hset hf' hdel
    · exact hset hf' h.registered
  cases hs with
  | put data => exact hset ⟨hf.has, hf.registering⟩ h.registered
  | outEnd out_q | out data out_q | outLater data out_q | outOpened data | outTimeout data =>
    exact hset ⟨hf.has, hf.registering⟩ h.registered
  | run token' hpc =>
    refine hset ⟨?_, by simp [WSNetworkTCP.registered]⟩ (hcontains token' k)
    rintro ⟨⟩
    exact hfresh rfl
  | runLater token' hpc =>
    refine hset ⟨hf.has, ?_⟩ (hcontains token' k)
    rintro ⟨⟩
    exact hfresh rfl
  | opened token' hpc | openTimeout token' hpc =>
    refine hset ⟨?_, by simp [WSNetworkTCP.registered]⟩ h.registered
    rintro ⟨⟩
    exact hf.registering hpc
  | resume hpc => exact hset ⟨hf.has, by simp⟩ h.registered
  | failRun _ _ hpc => exact hend _ rfl (.inl (by simp))
  | terminate => exact hend t rfl (.inr rfl)

end Sending

theorem not_mem_emit {gs : List Bytes} (h : ok ∉ gs) : ok ∉ i.emit gs := by
  unfold emit
  split
  · exact h
  · simp

theorem not_mem_dataFrames (hok : (CMD.OK { token }).toBytes = .ok ok) (tok : Option Bytes) (data : Bytes) :
    ok ∉ dataFrames tok data := by
  cases tok with
  | none => simp [dataFrames]
  | some tok =>
    simp only [dataFrames, sendSocketData]
    split
    · simp
    · exact not_mem_frames hok (fun p => by simp [CMD.type]) _

theorem not_mem_tcpStep (hok : (CMD.OK { token }).toBytes = .ok ok) {e : TcpEvent} (hs : TcpStep i k t e i' fs) :
    ok ∉ fs := by
  cases hs with
  | run tok | opened tok => exact not_mem_emit (not_mem_trySend hok (by simp [WSNetworkTCP.connectCmd, CMD.type]))
  | out data | outOpened data => exact not_mem_emit (not_mem_dataFrames hok t.token data)
  | _ => simp

/-- As long as the token is registered nobody sends an OK for it. -/
theorem sending_of_step (ht : token.length = 16) (hok : (CMD.OK { token }).toBytes = .ok ok) (h : Sending j token i)
    (hfresh : ∀ k, e ≠ .tcp k (.run token)) (hs : i.step e = some (i', fs)) :
    (Sending j token i' ∨ i'.dispatch_table.contains token = false) ∧ ok ∉ fs := by
  cases e with
  | onOpen | onClose | onError =>
    cases hs
    exact ⟨.inl ⟨h.registered, h.oks, h.own, h.others⟩, by simp⟩
  | onData data =>
    cases hs
    exact ⟨.inl (h.onData data), by simp⟩
  | terminate =>
    cases hs
    exact ⟨.inl h.terminate, by simp⟩
  | create ip port =>
    cases hs
    refine ⟨.inl ⟨h.registered, h.oks, ?_, fun k t hk hx => ?_⟩, by simp⟩
    · obtain ⟨t, htj, hown⟩ := h.own
      exact ⟨t, (List.getElem?_append_left (List.getElem?_eq_some_iff.1 htj).1).trans htj, hown⟩
    · simp only [List.getElem?_append] at hx
      split at hx
      · exact h.others k t hk hx
      · cases List.mem_singleton.1 (List.mem_of_getElem? hx)
        exact ⟨by simp, by simp⟩
  | tcp k e =>
    simp only [step] at hs
    split at hs
    · rename_i t hk
      have hstep := tcpStep_of_step hs
      refine ⟨?_, not_mem_tcpStep hok hstep⟩
      by_cases hkj : k = j
      · subst hkj
        exact h.tcpStep_own hk hstep
      · exact .inl (h.tcpStep_other hkj hk (fun he => hfresh k (by rw [he])) hstep)
    · cases hs
  | sendOk n =>
    simp only [step] at hs
    split at hs
    · rename_i token' htoken'
      split_ifs at hs
      cases hs
      refine ⟨.inl ⟨h.registered, fun hmem => h.oks (List.mem_of_mem_eraseIdx hmem), h.own, h.others⟩, ?_⟩
      refine not_mem_emit (not_mem_ok ht hok ?_)
      rintro rfl
      exact h.oks (List.mem_of_getElem? htoken')
    · cases hs
  | okTimeout n =>
    simp only [step] at hs
    split_ifs at hs
    cases hs
    exact ⟨.inl ⟨h.registered, fun hmem => h.oks (List.mem_of_mem_eraseIdx hmem), h.own, h.others⟩, by simp⟩

/-- A run up to the end of `terminate`. -/
theorem not_mem_of_run (ht : token.length = 16) (hok : (CMD.OK { token }).toBytes = .ok ok) (h : Sending j token i)
    (hrun : Run step i es i' fs) (hfresh : ∀ k, Event.tcp k (.run token) ∉ es)
    (hreg : StepsMeet step (fun i _ => i.dispatch_table.contains token = true) i es) : ok ∉ fs := by
  induction hrun with
  | nil => simp
  | cons hs hrun ih =>
    obtain ⟨hnext, hnot⟩ := sending_of_step ht hok h (fun k he => hfresh k (by rw [he]; exact List.mem_cons_self)) hs
    refine fun hmem => (List.mem_append.1 hmem).elim hnot ?_
    rcases hnext with hnext | hended
    · exact ih hnext (fun k hk => hfresh k (List.mem_cons_of_mem _ hk)) (hreg.tail hs)
    · cases hrun with
      | nil => simp
      | cons hs' _ => cases hended.symm.trans (hreg.tail hs).head

end WSNETWSInterface

end Wsnet.Pyodide
