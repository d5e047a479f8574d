import Wsnet.Pyodide.Transport

/-!
# How a connection closes

`WSNETConnection.close` calls the protocol's `connection_lost` and cancels both handlers. It is run by the
task of every `close()` or `abort()` of the transport and by the `finally` block of every handler that has
started, the cancelled one included; nothing notes that the connection is closed already. So `connection_lost`
is called once for each of them (`one_end_iff`). The handlers run one loop turn at a time here.
-/

namespace Wsnet.Pyodide.WSNETConnection
open WSNETTransport

/-- How far the task of a handler has run: not at all, to a wait in its loop, or to its end. -/
inductive HandlerPc
  | created
  | waiting
  | done
  deriving DecidableEq, Repr

structure HandlerTask where
  pc : HandlerPc := .created
  /-- it has been cancelled and has not run since -/
  cancelled : Bool := false
  deriving DecidableEq, Repr

def HandlerTask.cancel (t : HandlerTask) : HandlerTask := { t with cancelled := t.pc ≠ .done }

/-- Whether it has begun and not ended, and so will go through its `finally` block. -/
def HandlerTask.live (t : HandlerTask) : Nat :=
  match t.pc with
  | .waiting => 1
  | _ => 0

@[simp] theorem cancel_live (t : HandlerTask) : t.cancel.live = t.live := rfl

/-- The two handlers of a connection: `connection_handler_in` and `connection_handler_out`. -/
inductive Handler
  | handlerIn
  | handlerOut
  deriving DecidableEq, Repr

/-- A connection that is connected, with its protocol set. -/
structure Closing where
  disconnected_evt : Bool := false
  internal_in_q : List Bytes := []
  out_q : List (Option Bytes) := []
  conn_in_task : HandlerTask := {}
  conn_out_task : HandlerTask := {}
  /-- the tasks of `close()` calls of the transport that have not run -/
  closing : Nat := 0
  deriving DecidableEq, Repr

/-- What the protocol is told. -/
inductive Callback
  | data_received (data : CMD.Data)
  | connection_lost
  deriving DecidableEq, Repr

inductive CloseEvent
  /-- a frame for the connection arrives -/
  | arrives (frame : Bytes)
  /-- the websocket closes -/
  | disconnected
  | call (c : Call)
  /-- the transport's `close()` or `abort()` -/
  | close
  /-- the task of such a call runs -/
  | closeTask
  /-- the task of a handler runs for the first time -/
  | start (h : Handler)
  /-- the task of a handler that has been cancelled runs -/
  | cancelled (h : Handler)
  /-- `connection_handler_in` takes a frame; `raises`: the protocol raises when it gets the data -/
  | message (raises : Bool)
  /-- `connection_handler_out` takes an item; `raises`: a send raises -/
  | item (raises : Bool)
  deriving DecidableEq, Repr

/-- The event begins something that will run `close`. -/
def CloseEvent.Begins : CloseEvent → Bool
  | .close => true
  | .start _ => true
  | _ => false

namespace Closing

def task (s : Closing) : Handler → HandlerTask
  | .handlerIn => s.conn_in_task
  | .handlerOut => s.conn_out_task

def setTask (s : Closing) (h : Handler) (t : HandlerTask) : Closing :=
  match h with
  | .handlerIn => { s with conn_in_task := t }
  | .handlerOut => { s with conn_out_task := t }

/-- `WSNETConnection.close` -/
def close (s : Closing) : Closing × List Callback :=
  ({ s with
      disconnected_evt := true
      conn_out_task := s.conn_out_task.cancel
      conn_in_task := s.conn_in_task.cancel }, [.connection_lost])

/-- The `finally` block of a handler, and its end. -/
def finish (s : Closing) (h : Handler) : Closing × List Callback :=
  (s.close.1.setTask h { pc := .done }, s.close.2)

/-- A handler at the head of its loop. -/
def loop (s : Closing) (h : Handler) : Closing × List Callback :=
  if s.disconnected_evt then s.finish h else (s.setTask h { pc := .waiting }, [])

/-- `connection_handler_in` with a frame it has taken. -/
def received (s : Closing) (frame : Bytes) (raises : Bool) : Closing × List Callback :=
  match CMD.fromBytes frame with
  | .error _ => s.finish .handlerIn
  | .ok (.OK _) => s.finish .handlerIn
  | .ok (.ERR _) => s.finish .handlerIn
  | .ok cmd =>
    match cmd.data with
    | none => s.finish .handlerIn
    | some data =>
      let (s', o) := if raises then s.finish .handlerIn else s.loop .handlerIn
      (s', .data_received data :: o)

/-- `connection_handler_out` with an item it has taken; the frames it sends are in `OutSide`. -/
def taken (s : Closing) (item : Option Bytes) (raises : Bool) : Closing × List Callback :=
  if item = none ∨ item = some [] ∨ raises then s.finish .handlerOut else s.loop .handlerOut

def step (s : Closing) : CloseEvent → Option (Closing × List Callback)
  | .arrives frame => some ({ s with internal_in_q := s.internal_in_q ++ [frame] }, [])
  | .disconnected => some ({ s with disconnected_evt := true }, [])
  | .call c => some ({ s with out_q := s.out_q ++ [c.item] }, [])
  | .close => some ({ s with closing := s.closing + 1 }, [])
  | .closeTask => if 0 < s.closing then some { s with closing := s.closing - 1 }.close else none
  | .start h => if s.task h = {} then some (s.loop h) else none
  | .cancelled h =>
    if (s.task h).cancelled then
      -- a task that is cancelled before it has run does not enter its `try`
      if (s.task h).pc = .waiting then some (s.finish h) else some (s.setTask h { pc := .done }, [])
    else none
  | .message raises =>
    if s.conn_in_task = { pc := .waiting } then
      match s.internal_in_q with
      | [] => none
      | frame :: rest => some ({ s with internal_in_q := rest }.received frame raises)
    else none
  | .item raises =>
    if s.conn_out_task = { pc := .waiting } then
      match s.out_q with
      | [] => none
      | item :: rest => some ({ s with out_q := rest }.taken item raises)
    else none

variable {s s' : Closing} {e : CloseEvent} {o : List Callback} {h : Handler}

/-- Those that have begun and will run `close`: the handlers that wait, and the tasks of the calls. -/
def live (s : Closing) : Nat := s.closing + s.conn_in_task.live + s.conn_out_task.live

@[simp] theorem live_close (s : Closing) : s.close.1.live = s.live := rfl

theorem live_setTask (s : Closing) (h : Handler) (t : HandlerTask) :
    (s.setTask h t).live + (s.task h).live = s.live + t.live := by
  cases h <;> simp only [live, setTask, task] <;> omega

theorem live_finish (s : Closing) (h : Handler) : (s.finish h).1.live + (s.task h).live = s.live := by
  have hset := live_setTask s.close.1 h { pc := .done }
  have htask : (s.close.1.task h).live = (s.task h).live := by cases h <;> rfl
  rw [htask, live_close] at hset
  exact hset

theorem live_loop (s : Closing) (h : Handler) :
    (s.loop h).2.count .connection_lost + (s.loop h).1.live + (s.task h).live = s.live + 1 := by
  unfold loop
  split
  · have := live_finish s h
    simp only [finish, close, List.count_singleton_self] at this ⊢
    omega
  · have := live_setTask s h { pc := .waiting }
    simpa [HandlerTask.live] using this

theorem live_received (frame : Bytes) (raises : Bool) (ht : s.conn_in_task = { pc := .waiting }) :
    (s.received frame raises).2.count .connection_lost + (s.received frame raises).1.live = s.live := by
  have hlive : (s.task .handlerIn).live = 1 := by simp [task, ht, HandlerTask.live]
  have hfinish : (s.finish .handlerIn).2.count .connection_lost + (s.finish .handlerIn).1.live = s.live := by
    have := live_finish s .handlerIn
    simp only [finish, close, List.count_singleton_self] at this ⊢
    omega
  have hloop := live_loop s .handlerIn
  unfold received
  split
  · exact hfinish
  · exact hfinish
  · exact hfinish
  · split
    · exact hfinish
    · split_ifs
      · simpa using hfinish
      · simp only [List.count_cons_of_ne (show Callback.data_received _ ≠ .connection_lost by simp)]
        omega

theorem live_taken (item : Option Bytes) (raises : Bool) (ht : s.conn_out_task = { pc := .waiting }) :
    (s.taken item raises).2.count .connection_lost + (s.taken item raises).1.live = s.live := by
  have hlive : (s.task .handlerOut).live = 1 := by simp [task, ht, HandlerTask.live]
  unfold taken
  split
  · have := live_finish s .handlerOut
    simp only [finish, close, List.count_singleton_self] at this ⊢
    omega
  · have := live_loop s .handlerOut
    omega

/-- A call of `connection_lost` uses up one that has begun; a `close()` call and the start of a handler add one. -/
theorem live_of_step (hs : s.step e = some (s', o)) :
    o.count .connection_lost + s'.live = s.live + if e.Begins then 1 else 0 := by
  cases e with
  | arrives frame => cases hs; simp [live, CloseEvent.Begins]
  | disconnected => cases hs; simp [live, CloseEvent.Begins]
  | call c => cases hs; simp [live, CloseEvent.Begins]
  | close =>
    cases hs
    simp [live, CloseEvent.Begins]
    omega
  | closeTask =>
    simp only [step] at hs
    split_ifs at hs with hpos
    cases hs
    simp [live, CloseEvent.Begins]
    omega
  | start h =>
    simp only [step] at hs
    split_ifs at hs with ht
    obtain ⟨rfl, rfl⟩ := Prod.ext_iff.1 (Option.some.inj hs)
    have := live_loop s h
    simpa [ht, HandlerTask.live, CloseEvent.Begins] using this
  | cancelled h =>
    simp only [step] at hs
    split_ifs at hs with hc hw
    · cases hs
      have := live_finish s h
      simp only [finish, close, List.count_singleton_self, HandlerTask.live, hw, CloseEvent.Begins, Bool.false_eq_true,
        if_false] at this ⊢
      omega
    · cases hs
      have := live_setTask s h { pc := .done }
      have hlive : (s.task h).live = 0 := by
        unfold HandlerTask.live
        split
        · exact absurd ‹_› hw
        · rfl
      simpa [hlive, HandlerTask.live, CloseEvent.Begins] using this
  | message raises =>
    simp only [step] at hs
    split_ifs at hs with ht
    split at hs
    · cases hs
    · obtain ⟨rfl, rfl⟩ := Prod.ext_iff.1 (Option.some.inj hs)
      exact live_received (s := { s with internal_in_q := _ }) _ raises ht
  | item raises =>
    simp only [step] at hs
    split_ifs at hs with ht
    split at hs
    · cases hs
    · obtain ⟨rfl, rfl⟩ := Prod.ext_iff.1 (Option.some.inj hs)
      exact live_taken (s := { s with out_q := _ }) _ raises ht

/-- The handler has ended, or has been cancelled and so takes nothing any more. -/
def Off (s : Closing) (h : Handler) : Prop := (s.task h).pc = .done ∨ (s.task h).cancelled = true

theorem off_close (s : Closing) (h : Handler) : s.close.1.Off h := by
  by_cases hd : (s.task h).pc = .done
  · left
    cases h <;> exact hd
  · right
    cases h <;> simpa [close, task, HandlerTask.cancel] using hd

@[simp] theorem task_setTask (s : Closing) (h k : Handler) (t : HandlerTask) :
    (s.setTask h t).task k = if k = h then t else s.task k := by
  cases h <;> cases k <;> rfl

theorem off_setTask (s : Closing) (h k : Handler) (t : HandlerTask) :
    (s.setTask h t).Off k ↔ if k = h then t.pc = .done ∨ t.cancelled = true else s.Off k := by
  unfold Off
  rw [task_setTask]
  split <;> rfl

theorem off_finish (s : Closing) (h k : Handler) : (s.finish h).1.Off k := by
  rw [finish, off_setTask]
  split
  · exact .inl rfl
  · exact off_close s k

theorem not_off (ht : s.task h = { pc := .waiting } ∨ s.task h = {}) : ¬ s.Off h := by
  rcases ht with ht | ht <;> simp [Off, ht]

end Closing

/-- Nothing but `connection_lost` follows a `connection_lost`. -/
def NoDataAfterLost (os : List Callback) : Prop := os.Pairwise fun c c' => c = .connection_lost → c' = .connection_lost

namespace Closing
variable {s s' s₁ : Closing} {e : CloseEvent} {o : List Callback} {h : Handler}

/-- What a step tells the protocol, and what it does to the handlers. -/
structure Tells (s s' : Closing) (o : List Callback) : Prop where
  off : ∀ h, s'.Off h ↔ s.Off h ∨ .connection_lost ∈ o
  deaf : s.Off .handlerIn → ∀ c ∈ o, c = .connection_lost
  ordered : NoDataAfterLost o

theorem Tells.of_lost (hoff : ∀ h, s'.Off h) : Tells s s' [.connection_lost] :=
  ⟨fun h => iff_of_true (hoff h) (.inr List.mem_cons_self), fun _ => by simp, List.pairwise_singleton _ _⟩

theorem Tells.of_nil (hoff : ∀ h, s'.Off h ↔ s.Off h) : Tells s s' [] :=
  ⟨by simpa using hoff, fun _ => by simp, List.Pairwise.nil⟩

theorem Tells.congr (ht : Tells s s' o) (htask : s₁.task = s.task) : Tells s₁ s' o where
  off h := by
    rw [ht.off h, Off, Off, htask]
  deaf ho := ht.deaf (by rwa [Off, htask] at ho)
  ordered := ht.ordered

theorem Tells.data (ht : Tells s s' o) (hn : ¬ s.Off .handlerIn) (data : CMD.Data) :
    Tells s s' (.data_received data :: o) where
  off h := by simpa using ht.off h
  deaf ho := absurd ho hn
  ordered := List.pairwise_cons.2 ⟨fun c _ hc => (by cases hc), ht.ordered⟩

theorem tells_loop (hn : ¬ s.Off h) : Tells s (s.loop h).1 (s.loop h).2 := by
  unfold loop
  split
  · exact .of_lost (off_finish s h)
  · refine .of_nil fun k => ?_
    rw [off_setTask]
    split
    · rename_i hk
      exact iff_of_false (by simp) (hk ▸ hn)
    · exact Iff.rfl

theorem tells_received (frame : Bytes) (raises : Bool) (hn : ¬ s.Off .handlerIn) :
    Tells s (s.received frame raises).1 (s.received frame raises).2 := by
  have hfinish : Tells s (s.finish .handlerIn).1 (s.finish .handlerIn).2 := .of_lost (off_finish s _)
  unfold received
  split
  · exact hfinish
  · exact hfinish
  · exact hfinish
  · split
    · exact hfinish
    · split_ifs
      · exact hfinish.data hn _
      · exact (tells_loop hn).data hn _

theorem tells_taken (item : Option Bytes) (raises : Bool) (hn : ¬ s.Off .handlerOut) :
    Tells s (s.taken item raises).1 (s.taken item raises).2 := by
  unfold taken
  split
  · exact .of_lost (off_finish s _)
  · exact tells_loop hn

theorem tells_of_step (hs : s.step e = some (s', o)) : Tells s s' o := by
  cases e with
  | arrives frame => cases hs; exact .of_nil fun _ => Iff.rfl
  | disconnected => cases hs; exact .of_nil fun _ => Iff.rfl
  | call c => cases hs; exact .of_nil fun _ => Iff.rfl
  | close => cases hs; exact .of_nil fun _ => Iff.rfl
  | closeTask =>
    simp only [step] at hs
    split_ifs at hs
    cases hs
    exact .of_lost (off_close _)
  | start h =>
    simp only [step] at hs
    split_ifs at hs with ht
    obtain ⟨rfl, rfl⟩ := Prod.ext_iff.1 (Option.some.inj hs)
    exact tells_loop (not_off (.inr ht))
  | cancelled h =>
    simp only [step] at hs
    split_ifs at hs with hc
    · cases hs
      exact .of_lost (off_finish s h)
    · cases hs
      refine .of_nil fun k => ?_
      rw [off_setTask]
      split
      · rename_i hk
        exact iff_of_true (.inl rfl) (.inr (hk ▸ hc))
      · exact Iff.rfl
  | message raises =>
    simp only [step] at hs
    split_ifs at hs with ht
    split at hs
    · cases hs
    · rename_i frame rest _
      obtain ⟨rfl, rfl⟩ := Prod.ext_iff.1 (Option.some.inj hs)
      exact (tells_received (s := { s with internal_in_q := rest }) frame raises (not_off (.inl ht))).congr rfl
  | item raises =>
    simp only [step] at hs
    split_ifs at hs with ht
    split at hs
    · cases hs
    · rename_i item rest _
      obtain ⟨rfl, rfl⟩ := Prod.ext_iff.1 (Option.some.inj hs)
      exact (tells_taken (s := { s with out_q := rest }) item raises (not_off (.inl ht))).congr rfl

/-- No task has anything to run. -/
def Quiet (s : Closing) : Prop :=
  s.step .closeTask = none ∧ ∀ h raises, s.step (.start h) = none ∧ s.step (.cancelled h) = none ∧
    s.step (.message raises) = none ∧ s.step (.item raises) = none

theorem Quiet.closing (hq : s.Quiet) : s.closing = 0 := by
  have hclose := hq.1
  simp only [step] at hclose
  split_ifs at hclose with hpos
  omega

theorem Quiet.not_cancelled (hq : s.Quiet) (h : Handler) : (s.task h).cancelled = false := by
  have hc := (hq.2 h false).2.1
  simp only [step] at hc
  split_ifs at hc with hcancelled
  simpa using hcancelled

/-- When nothing is left to run, a handler has ended or it waits. -/
theorem Quiet.task_cases (hq : s.Quiet) (h : Handler) :
    s.Off h ∧ (s.task h).live = 0 ∨ ¬ s.Off h ∧ (s.task h).live = 1 := by
  have hstart := (hq.2 h false).1
  simp only [step] at hstart
  split_ifs at hstart with hnew
  have hc := hq.not_cancelled h
  rcases ht : s.task h with ⟨pc, cancelled⟩
  rw [ht] at hc hnew
  subst hc
  cases pc with
  | created => exact absurd rfl hnew
  | waiting => exact .inr ⟨by simp [Off, ht], rfl⟩
  | done => exact .inl ⟨by simp [Off, ht], rfl⟩

/-- What has been told so far: every handler is off once `connection_lost` has been called. -/
structure Told (es : List CloseEvent) (s : Closing) (os : List Callback) : Prop where
  live : os.count .connection_lost + s.live = es.countP CloseEvent.Begins
  off : ∀ h, s.Off h ↔ .connection_lost ∈ os
  ordered : NoDataAfterLost os

theorem Told.step {es : List CloseEvent} {os : List Callback} (ht : Told es s os) (hs : s.step e = some (s', o)) :
    Told (es ++ [e]) s' (os ++ o) where
  live := by
    have hlive := live_of_step hs
    have := ht.live
    rw [List.count_append, List.countP_append, List.countP_singleton]
    omega
  off h := by rw [(tells_of_step hs).off h, ht.off h, List.mem_append]
  ordered := List.pairwise_append.2 ⟨ht.ordered, (tells_of_step hs).ordered, fun c hc c' hc' hlost =>
    (tells_of_step hs).deaf ((ht.off _).2 (hlost ▸ hc)) c' hc'⟩

end Closing

/-- When nothing is left to run, `connection_lost` has been called exactly once, and no data behind it, exactly
when there has been one `close()` call of the transport and no handler has started, or no such call and only one
handler has started. -/
theorem one_end_iff {d : Bool} {q : List Bytes} {es : List CloseEvent} {s : Closing} {os : List Callback}
    (h : Run Closing.step { disconnected_evt := d, internal_in_q := q } es s os) (hq : s.Quiet) :
    os.count .connection_lost = 1 ∧ NoDataAfterLost os ↔ es.countP CloseEvent.Begins = 1 := by
  have htold : Closing.Told es s os := h.history_invariant_of (A := fun _ => True)
    (fun _ ht hs => ht.step hs) (fun _ _ => trivial)
    ⟨rfl, fun k => by cases k <;> simp [Closing.Off, Closing.task], List.Pairwise.nil⟩
  have hlive := htold.live
  simp only [Closing.live, hq.closing, htold.ordered, and_true] at hlive ⊢
  by_cases hlost : .connection_lost ∈ os
  · have hzero (k : Handler) : (s.task k).live = 0 := by
      rcases hq.task_cases k with ⟨-, hk⟩ | ⟨hk, -⟩
      · exact hk
      · exact absurd ((htold.off k).2 hlost) hk
    have hin := hzero .handlerIn
    have hout := hzero .handlerOut
    simp only [Closing.task] at hin hout
    omega
  · -- both handlers wait
    have hone (k : Handler) : (s.task k).live = 1 := by
      rcases hq.task_cases k with ⟨hk, -⟩ | ⟨-, hk⟩
      · exact absurd ((htold.off k).1 hk) hlost
      · exact hk
    have hin := hone .handlerIn
    have hout := hone .handlerOut
    simp only [Closing.task] at hin hout
    have := List.count_eq_zero_of_not_mem hlost
    omega

/-- The agent's `OK` is there before the handlers start. -/
theorem one_end_iff_early : ∃ s os, Run Closing.step
      { disconnected_evt := false, internal_in_q := [[0, 0, 0, 26, 0, 0] ++ List.replicate 16 5 ++ [0, 0, 0, 0]] }
      [.start .handlerIn, .message false, .cancelled .handlerOut] s os ∧ s.Quiet ∧
    (os.count .connection_lost = 1 ∧ NoDataAfterLost os ↔
      [CloseEvent.start .handlerIn, .message false, .cancelled .handlerOut].countP CloseEvent.Begins = 1) :=
  have h : Run Closing.step
      { disconnected_evt := false, internal_in_q := [[0, 0, 0, 26, 0, 0] ++ List.replicate 16 5 ++ [0, 0, 0, 0]] }
      [.start .handlerIn, .message false, .cancelled .handlerOut] _ _ := .of_exec rfl
  have hq : Closing.Quiet ⟨true, [], [], { pc := .done }, { pc := .done }, 0⟩ :=
    ⟨rfl, fun h _ => by cases h <;> exact ⟨rfl, rfl, rfl, rfl⟩⟩
  ⟨_, _, h, hq, one_end_iff h hq⟩

/-- Both handlers run, the agent's `OK` ends one, and that cancels the other. -/
theorem not_one_end : ∃ s os, Run Closing.step {} [.start .handlerIn, .start .handlerOut,
      .arrives ([0, 0, 0, 26, 0, 0] ++ List.replicate 16 5 ++ [0, 0, 0, 0]), .message false,
        .cancelled .handlerOut] s os ∧
    s.Quiet ∧ os = [.connection_lost, .connection_lost] :=
  ⟨_, _, .of_exec rfl, ⟨rfl, fun h _ => by cases h <;> exact ⟨rfl, rfl, rfl, rfl⟩⟩, rfl⟩

end Wsnet.Pyodide.WSNETConnection
