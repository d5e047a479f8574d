import Wsnet.Operator.NetworkProxy
import Wsnet.Protocol.Addresses
import Wsnet.Pyodide.LocalClose

/-!
# The OK of a tunnel that an operator closes

`__handle_out` of `WSNetworkWS` sends its OK in a `finally` block too. `close` only cancels the task; the
coroutine of `self.ws.close()` is not awaited and never runs. `terminate` awaits it, and the cancelled task
finds the websocket open only if it runs before the close takes effect. With the transports of the browser side
this settles which ways of closing reach the agent (`announced_of_ended`).
-/

namespace Wsnet.Operator

open WSNETSSPIProxy (request)

namespace WSNetworkWS

/-- Where `__handle_out` is. -/
inductive OutPc
  | getting
  /-- in the `send` of a message -/
  | sending
  /-- in the `send` of the `finally` block -/
  | ending
  | done
  deriving DecidableEq, Repr

structure OutTask where
  out_q : List (Option Bytes) := []
  pc : OutPc := .getting
  /-- it has been cancelled and has not run since -/
  cancelled : Bool := false
  /-- the websocket takes messages -/
  ws : Bool := true
  /-- `terminate` is in `await self.ws.close()` -/
  closing : Bool := false
  deriving DecidableEq, Repr

inductive OutEvent
  | put (data : Option Bytes)
  /-- the task takes an item -/
  | item
  /-- the `send` it waits for returns, or raises -/
  | sent (raises : Bool)
  /-- it has been cancelled, and runs -/
  | cancelled
  | terminate
  /-- the close of the websocket takes effect, and `terminate` returns -/
  | closed
  | close
  deriving DecidableEq, Repr

namespace OutTask

def cancel (t : OutTask) : OutTask := { t with cancelled := t.pc ≠ .done }

/-- The `finally` block, up to its `send`. -/
def finish (s : WSNetworkWS) (t : OutTask) : OutTask × List Bytes :=
  match t.ws, request s.agent_id (.OK { token := s.token }) with
  | true, .ok frame => ({ t with pc := .ending }, [frame])
  | _, _ => ({ t with pc := .done }, [])

def taken (s : WSNetworkWS) (t : OutTask) (data : Option Bytes) : OutTask × List Bytes :=
  match data with
  | none | some [] => t.finish s
  | some data =>
    match t.ws, request s.agent_id (.SD { token := s.token, data }) with
    | true, .ok frame => ({ t with pc := .sending }, [frame])
    | _, _ => t.finish s

def step (s : WSNetworkWS) (t : OutTask) : OutEvent → Option (OutTask × List Bytes)
  | .put data => some ({ t with out_q := t.out_q ++ [data] }, [])
  | .item =>
    if t.pc = .getting ∧ t.cancelled = false then
      match t.out_q with
      | [] => none
      | data :: rest => some ({ t with out_q := rest }.taken s data)
    else none
  | .sent raises =>
    if t.cancelled then none
    else
      match t.pc with
      | .sending => if raises then some (t.finish s) else some ({ t with pc := .getting }, [])
      | .ending => some ({ t with pc := .done }, [])
      | _ => none
  | .cancelled =>
    if t.cancelled then
      match t.pc with
      | .getting | .sending => some ({ t with cancelled := false }.finish s)
      | _ => some ({ t with cancelled := false, pc := .done }, [])
    else none
  | .terminate => some ({ t.cancel with closing := true }, [])
  | .closed => if t.closing then some ({ t with ws := false, closing := false }, []) else none
  | .close => some (t.cancel, [])

variable {s : WSNetworkWS} {t t' : OutTask} {e : OutEvent} {o : List Bytes} {ok : Bytes}

/-- It has not come to its `finally` block. -/
def Before (t : OutTask) : Prop := t.pc = .getting ∨ t.pc = .sending

def After (t : OutTask) : Prop := t.pc = .ending ∨ t.pc = .done

/-- The close of the websocket takes effect before the `finally` block. -/
def Loses (t : OutTask) (e : OutEvent) : Prop := e = .closed ∧ Before t

/-- A command for the agent carries the command itself. -/
theorem type_eq_of_request {agentid : Option Bytes} {c c' : CMD} {f : Bytes} (h : request agentid c = .ok f)
    (h' : request agentid c' = .ok f) : c.type = c'.type := by
  cases agentid with
  | none => exact CMD.type_eq_of_toBytes h h'
  | some agentid =>
    obtain ⟨cmd, hcmd, -, rfl⟩ := OPCMD.toBytes_eq_ok.1 h
    obtain ⟨cmd', hcmd', -, heq⟩ := OPCMD.toBytes_eq_ok.1 h'
    have htail := (List.append_inj heq (by simp)).2
    rw [← List.append_cancel_left htail] at hcmd'
    exact CMD.type_eq_of_toBytes hcmd hcmd'

theorem after_finish (s : WSNetworkWS) (t : OutTask) : After (t.finish s).1 := by
  unfold finish
  split
  · exact .inl rfl
  · exact .inr rfl

theorem saidLast_finish (hok : request s.agent_id (.OK { token := s.token }) = .ok ok) (hws : t.ws = true) :
    SaidLast ok (t.finish s).2 := by
  simp only [finish, hws, hok]
  exact saidLast_singleton ok

theorem finish_of_lost (hws : t.ws = false) : (t.finish s).1.ws = false ∧ (t.finish s).2 = [] := by
  unfold finish
  split
  · rename_i h _
    cases hws.symm.trans h
  · exact ⟨hws, rfl⟩

theorem taken_of_lost (hws : t.ws = false) (data : Option Bytes) :
    (t.taken s data).1.ws = false ∧ (t.taken s data).2 = [] := by
  have hfinish := finish_of_lost (s := s) hws
  unfold taken
  split
  · exact hfinish
  · exact hfinish
  · split
    · rename_i h _
      cases hws.symm.trans h
    · exact hfinish

theorem taken_spec (hok : request s.agent_id (.OK { token := s.token }) = .ok ok) (hws : t.ws = true)
    (data : Option Bytes) :
    ((t.taken s data).1.ws = true ∧ Before (t.taken s data).1) ∧ ok ∉ (t.taken s data).2 ∨
      After (t.taken s data).1 ∧ SaidLast ok (t.taken s data).2 := by
  have hfinish : After (t.finish s).1 ∧ SaidLast ok (t.finish s).2 := ⟨after_finish s t, saidLast_finish hok hws⟩
  unfold taken
  split
  · exact .inr hfinish
  · exact .inr hfinish
  · split
    · rename_i frame hframe
      refine .inl ⟨⟨hws, .inr rfl⟩, fun hmem => ?_⟩
      rw [← List.mem_singleton.1 hmem] at hframe
      cases type_eq_of_request hframe hok
    · exact .inr hfinish

theorem sent_cases {raises : Bool} (hs : t.step s (.sent raises) = some (t', o)) : t.cancelled = false ∧
    (t.pc = .sending ∧ (if raises then t.finish s else ({ t with pc := .getting }, [])) = (t', o) ∨
      t.pc = .ending ∧ ({ t with pc := .done }, []) = (t', o)) := by
  cases hc : t.cancelled with
  | true => simp [step, hc] at hs
  | false =>
    refine ⟨rfl, ?_⟩
    cases hpc : t.pc with
    | getting | done => simp [step, hc, hpc] at hs
    | ending => exact .inr ⟨rfl, by simpa [step, hc, hpc] using hs⟩
    | sending =>
      refine .inl ⟨rfl, ?_⟩
      cases raises <;> simpa [step, hc, hpc] using hs

theorem work_of_step (hok : request s.agent_id (.OK { token := s.token }) = .ok ok) (hws : t.ws = true)
    (hb : Before t) (hs : t.step s e = some (t', o)) :
    (t'.ws = true ∧ Before t') ∧ ok ∉ o ∧ ¬ Loses t e ∨ After t' ∧ SaidLast ok o ∧ ¬ Loses t e ∨
      t'.ws = false ∧ ok ∉ o ∧ Loses t e := by
  have hquiet : ok ∉ ([] : List Bytes) := List.not_mem_nil
  cases e with
  | put | terminate | close =>
    cases hs
    exact .inl ⟨⟨hws, hb⟩, hquiet, by simp [Loses]⟩
  | closed =>
    simp only [step] at hs
    split_ifs at hs
    cases hs
    exact .inr (.inr ⟨rfl, hquiet, rfl, hb⟩)
  | item =>
    simp only [step] at hs
    split_ifs at hs
    split at hs
    · cases hs
    · rename_i data rest hq
      have hspec := taken_spec (t := { t with out_q := rest }) hok hws data
      rw [Option.some.inj hs] at hspec
      rcases hspec with ⟨hworks, hnot⟩ | ⟨hafter, hlast⟩
      · exact .inl ⟨hworks, hnot, by simp [Loses]⟩
      · exact .inr (.inl ⟨hafter, hlast, by simp [Loses]⟩)
  | sent raises =>
    obtain ⟨-, ⟨hpc, hr⟩ | ⟨hpc, hr⟩⟩ := sent_cases hs
    · cases raises with
      | true =>
        have hafter := after_finish s t
        have hlast := saidLast_finish hok hws
        rw [if_pos rfl] at hr
        rw [hr] at hafter hlast
        exact .inr (.inl ⟨hafter, hlast, by simp [Loses]⟩)
      | false =>
        cases hr
        exact .inl ⟨⟨hws, .inl rfl⟩, hquiet, by simp [Loses]⟩
    · rcases hb with hpc' | hpc' <;> cases hpc.symm.trans hpc'
  | cancelled =>
    simp only [step] at hs
    split_ifs at hs
    have hfinish : some ({ t with cancelled := false }.finish s) = some (t', o) := by
      rcases hb with hpc | hpc
      · simpa only [hpc] using hs
      · simpa only [hpc] using hs
    have hafter := after_finish s { t with cancelled := false }
    have hlast := saidLast_finish (t := { t with cancelled := false }) hok hws
    rw [Option.some.inj hfinish] at hafter hlast
    exact .inr (.inl ⟨hafter, hlast, by simp [Loses]⟩)

theorem lost_of_step (hws : t.ws = false) (hs : t.step s e = some (t', o)) : t'.ws = false ∧ o = [] := by
  cases e with
  | put | terminate | close =>
    cases hs
    exact ⟨hws, rfl⟩
  | closed =>
    simp only [step] at hs
    split_ifs at hs
    cases hs
    exact ⟨rfl, rfl⟩
  | item =>
    simp only [step] at hs
    split_ifs at hs
    split at hs
    · cases hs
    · rename_i data rest hq
      have hlost := taken_of_lost (s := s) (t := { t with out_q := rest }) hws data
      rwa [Option.some.inj hs] at hlost
  | sent raises =>
    obtain ⟨-, ⟨hpc, hr⟩ | ⟨hpc, hr⟩⟩ := sent_cases hs
    · cases raises with
      | true =>
        have hlost := finish_of_lost (s := s) hws
        rw [if_pos rfl] at hr
        rwa [hr] at hlost
      | false =>
        cases hr
        exact ⟨hws, rfl⟩
    · cases hr
      exact ⟨hws, rfl⟩
  | cancelled =>
    simp only [step] at hs
    split_ifs at hs
    have hlost := finish_of_lost (s := s) (t := { t with cancelled := false }) hws
    split at hs
    · rwa [Option.some.inj hs] at hlost
    · rwa [Option.some.inj hs] at hlost
    · cases hs
      exact ⟨hws, rfl⟩

theorem After.not_before (ha : After t) : ¬ Before t := by
  rintro (hb | hb) <;> rcases ha with hpc | hpc <;> cases hpc.symm.trans hb

theorem after_of_step (ha : After t) (hs : t.step s e = some (t', o)) : After t' ∧ o = [] ∧ ¬ Loses t e := by
  suffices h : After t' ∧ o = [] from ⟨h.1, h.2, fun hloses => ha.not_before hloses.2⟩
  cases e with
  | put | terminate | close =>
    cases hs
    exact ⟨ha, rfl⟩
  | closed =>
    simp only [step] at hs
    split_ifs at hs
    cases hs
    exact ⟨ha, rfl⟩
  | item =>
    simp only [step] at hs
    split_ifs at hs with hpc
    exact absurd (.inl hpc.1) ha.not_before
  | sent raises =>
    obtain ⟨-, ⟨hpc, -⟩ | ⟨hpc, hr⟩⟩ := sent_cases hs
    · exact absurd (.inr hpc) ha.not_before
    · cases hr
      exact ⟨.inr rfl, rfl⟩
  | cancelled =>
    simp only [step] at hs
    split_ifs at hs
    split at hs
    · rename_i hpc
      exact absurd (.inl hpc) ha.not_before
    · rename_i hpc
      exact absurd (.inr hpc) ha.not_before
    · cases hs
      exact ⟨.inr rfl, rfl⟩

theorem lastWord (hok : request s.agent_id (.OK { token := s.token }) = .ok ok) :
    LastWord (step s) ok (fun t => t.ws = true ∧ Before t) After (fun t => t.ws = false) Loses where
  works h hs := work_of_step hok h.1 h.2 hs
  ended := after_of_step
  lost h hs := by
    obtain ⟨hws, rfl⟩ := lost_of_step h hs
    exact ⟨hws, by simp⟩

end OutTask

/-- The OK is shorter than the CONNECT that has been sent. -/
theorem exists_ok {s : WSNetworkWS} {o : Opening} (ht : s.token.length = 16) (h : Listens s o) :
    ∃ ok, request s.agent_id (.OK { token := s.token }) = .ok ok := by
  obtain ⟨-, -, raw, hraw⟩ := h
  obtain ⟨ok, hok⟩ := Pyodide.exists_toBytes_ok ht
  cases hid : s.agent_id with
  | none => exact ⟨ok, hok⟩
  | some agentid =>
    rw [hid] at hraw
    obtain ⟨connect, hconnect, hlt, -⟩ := OPCMD.toBytes_eq_ok.1 hraw
    refine ⟨_, OPCMD.toBytes_eq_ok.2 ⟨ok, hok, ?_, rfl⟩⟩
    have hlen := CMD.length_of_toBytes hok
    have hlen' := CMD.length_of_toBytes hconnect
    rw [Pyodide.WSNETConnection.frameLength_OK, ht] at hlen
    rw [CMD.frameLength_CONNECT ht (show (utf8Encode "TCP").length = 3 by decide) ⟨by simp, by simp⟩] at hlen'
    simp only [List.length_append] at hlt ⊢
    omega

end WSNetworkWS

/-! ### All four -/

open Pyodide

/-- Exactly one OK with the token has been sent, behind everything else. -/
def Announced (agentid : Option Bytes) (token : Bytes) (sent : List Bytes) : Prop :=
  ∃ ok, request agentid (.OK { token }) = .ok ok ∧ SaidLast ok sent

section Announced
variable {agentid : Option Bytes} {token ok : Bytes} {sent : List Bytes}

theorem announced_iff (hok : request agentid (.OK { token }) = .ok ok) :
    Announced agentid token sent ↔ SaidLast ok sent := by
  constructor
  · rintro ⟨ok', hok', h⟩
    rwa [Except.ok.inj (hok.symm.trans hok')]
  · exact fun h => ⟨ok, hok, h⟩

end Announced

/-- Which of the local ways of ending a connection sends its OK: no way of `WSNetworkTCP`; for `WSNetworkUDP` the end of
the task before `terminate` runs; for `WSNetworkWS` those that come to the `finally` block before the close of the
websocket takes effect; every way of `WSNETConnection`. -/
theorem announced_of_ended (token : Bytes) (ht : token.length = 16) :
    (∀ (j : Nat) (i i' : WSNETWSInterface) (es : List WSNETWSInterface.Event) (sent : List Bytes),
      WSNETWSInterface.Sending j token i → Run WSNETWSInterface.step i es i' sent →
      (∀ k, .tcp k (.run token) ∉ es) →
      StepsMeet WSNETWSInterface.step (fun i _ => i.dispatch_table.contains token = true) i es →
      WSNETWSInterface.OutEnded j i' → ¬ Announced none token sent) ∧
    (∀ (s s' : WSNetworkUDP.OutTask) (es : List WSNetworkUDP.OutEvent) (sent : List Bytes),
      s.Works token → Run WSNetworkUDP.OutTask.step s es s' sent → s'.out_task.pc = .done →
      (Announced none token sent ↔ StepsMeet WSNetworkUDP.OutTask.step (fun s e => ¬ s.Loses e) s es)) ∧
    (∀ (s : WSNetworkWS) (o : Opening) (t t' : WSNetworkWS.OutTask) (es : List WSNetworkWS.OutEvent)
      (sent : List Bytes), s.token = token → s.Listens o → t.ws = true → t.Before →
      Run (WSNetworkWS.OutTask.step s) t es t' sent → t'.pc = .done → t'.closing = false →
      (Announced s.agent_id token sent ↔ StepsMeet (WSNetworkWS.OutTask.step s) (fun t e => ¬ t.Loses e) t es)) ∧
    ∀ (s s' : WSNETConnection.Closing) (es : List (WSNETConnection.CloseEvent × Nat)) (sent : List Bytes),
      s.conn_out_task.pc = .waiting → (∀ e ∈ es, e.1 ≠ .disconnected) →
      Run (WSNETConnection.Closing.stepSends token) s es s' sent → s'.conn_out_task.pc = .done →
      Announced none token sent := by
  obtain ⟨ok, hok⟩ := exists_toBytes_ok ht
  have hrequest : request none (.OK { token }) = .ok ok := hok
  refine ⟨?_, ?_, ?_, ?_⟩
  · rintro j i i' es sent h hrun hfresh hreg - hannounced
    have hlast := (announced_iff hrequest).1 hannounced
    exact WSNETWSInterface.not_mem_of_run ht hok h hrun hfresh hreg hlast.mem
  · intro s s' es sent hs hrun hdone
    rw [announced_iff hrequest]
    refine (WSNetworkUDP.OutTask.lastWord hok).iff hrun hs fun hs' => ?_
    cases hdone.symm.trans hs'.waiting
  · rintro s o t t' es sent rfl hlistens hws hbefore hrun hdone -
    obtain ⟨ok', hok'⟩ := WSNetworkWS.exists_ok ht hlistens
    rw [announced_iff hok']
    exact (WSNetworkWS.OutTask.lastWord hok').iff hrun ⟨hws, hbefore⟩ fun h' =>
      WSNetworkWS.OutTask.After.not_before (.inr hdone) h'.2
  · rintro s s' es sent hs - hrun hdone
    rw [announced_iff hrequest]
    refine ((WSNETConnection.Closing.lastWord hok).iff hrun hs fun hs' => ?_).2 ?_
    · cases hdone.symm.trans hs'
    · exact fun _ _ _ _ _ _ _ => id

section OneEach
open WSNetworkWS (tunnel tunnelToken tunnel_listens)

/-- A page with one connection, which is open. -/
def openPage : WSNETWSInterface :=
  { established := true
    dispatch_table := Dict.empty.set tunnelToken 0
    tcps := [{ ip := "10.0.0.1", port := 80, token := some tunnelToken, connection_established := true,
               runPc := .returned true, outPc := .getting }] }

theorem sending_openPage : WSNETWSInterface.Sending 0 tunnelToken openPage := by
  refine ⟨rfl, by simp [openPage], ⟨_, rfl, rfl, rfl, by simp⟩, fun k t hk ht => ?_⟩
  cases k with
  | zero => exact absurd rfl hk
  | succ k => simp [openPage] at ht

def openConnection : WSNETConnection.Closing := { conn_out_task := { pc := .waiting } }

def openUdp : WSNetworkUDP.OutTask := { token := tunnelToken, out_task := { pc := .waiting } }

/-- The end marker; for the last connection, a call of `close`. -/
theorem announced_of_ended_marker :
    (∃ i' sent, Run WSNETWSInterface.step openPage [.tcp 0 (.put none), .tcp 0 .out] i' sent ∧
      ¬ Announced none tunnelToken sent) ∧
    (∃ s' sent, Run WSNetworkUDP.OutTask.step openUdp [.put none, .item none] s' sent ∧
      Announced none tunnelToken sent) ∧
    (∃ t' sent, Run (WSNetworkWS.OutTask.step tunnel) {} [.put none, .item, .sent false] t' sent ∧
      Announced tunnel.agent_id tunnelToken sent) ∧
    ∃ s' sent, Run (WSNETConnection.Closing.stepSends tunnelToken) openConnection
      [(.close, 0), (.closeTask, 0), (.cancelled .handlerOut, 0)] s' sent ∧ Announced none tunnelToken sent := by
  obtain ⟨htcp, hudp, hws, hconnection⟩ := announced_of_ended tunnelToken rfl
  refine ⟨⟨_, _, .of_exec rfl, ?_⟩, ⟨_, _, .of_exec rfl, ?_⟩, ⟨_, _, .of_exec rfl, ?_⟩, ⟨_, _, .of_exec rfl, ?_⟩⟩
  · refine htcp 0 openPage _ [.tcp 0 (.put none), .tcp 0 .out] _ sending_openPage
      (.of_exec rfl) (by simp) ?_ ⟨_, rfl, rfl⟩
    exact .cons rfl rfl (.cons rfl rfl .nil)
  · refine (hudp openUdp _ [.put none, .item none] _ ⟨rfl, rfl, rfl⟩ (.of_exec rfl) rfl).2 ?_
    exact .cons (by simp [WSNetworkUDP.OutTask.Loses]) rfl (.cons (by simp [WSNetworkUDP.OutTask.Loses]) rfl .nil)
  · refine (hws tunnel {} {} _ [.put none, .item, .sent false] _ rfl tunnel_listens rfl (.inl rfl)
      (.of_exec rfl) rfl rfl).2 ?_
    exact .cons (by simp [WSNetworkWS.OutTask.Loses]) rfl (.cons (by simp [WSNetworkWS.OutTask.Loses]) rfl
      (.cons (by simp [WSNetworkWS.OutTask.Loses]) rfl .nil))
  · refine hconnection openConnection _ [(.close, 0), (.closeTask, 0), (.cancelled .handlerOut, 0)] _ rfl
      (by simp) (.of_exec rfl) ?_
    rfl

theorem not_announced_nil {agentid : Option Bytes} {token : Bytes} : ¬ Announced agentid token [] := by
  rintro ⟨ok, -, hlast⟩
  exact absurd hlast.mem List.not_mem_nil

/-- The end marker of `WSNetworkTCP`, and `terminate` of the other two. -/
theorem not_announced_of_ended :
    (∃ i', Run WSNETWSInterface.step openPage [.tcp 0 (.put none), .tcp 0 .out] i' [] ∧
      WSNETWSInterface.OutEnded 0 i' ∧ ¬ Announced none tunnelToken []) ∧
    (∃ s', Run WSNetworkUDP.OutTask.step openUdp [.terminate, .cancelled] s' [] ∧ s'.out_task.pc = .done ∧
      ¬ Announced none tunnelToken []) ∧
    ∃ t', Run (WSNetworkWS.OutTask.step tunnel) {} [.terminate, .closed, .cancelled] t' [] ∧ t'.pc = .done ∧
      t'.closing = false ∧ ¬ Announced tunnel.agent_id tunnelToken [] :=
  ⟨⟨_, .of_exec rfl, ⟨_, rfl, rfl⟩, not_announced_nil⟩, ⟨_, .of_exec rfl, rfl, not_announced_nil⟩,
    ⟨_, .of_exec rfl, rfl, rfl, not_announced_nil⟩⟩

end OneEach

end Wsnet.Operator
