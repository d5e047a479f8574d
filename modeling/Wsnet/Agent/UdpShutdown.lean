import Wsnet.Agent.Udp

/-!
# The end of a UDP server

`UdpHandler` is a `UDPConnHandler` that has started, with its two queues and a datagram transport that calls
`connection_lost` once it has been closed. Whatever ends the handler, and however often, the transport is closed
once; the watchdog and the writer end by their cancellation, and `run` by the item that `connection_lost` puts
into its queue (`shuts_down_once`). `work` bounds what is left to run.
-/

namespace Wsnet

structure UdpHandler where
  server : UdpServer
  in_queue : List Datagram := []
  /-- the data of the messages -/
  writer_queue : List Bytes := []
  /-- the transport has been closed and has not called `connection_lost` for it yet -/
  losing : Bool := false
  deriving DecidableEq, Repr

namespace UdpHandler

inductive Event
  /-- the protocol puts a datagram or an error on the queue -/
  | arrives (d : Datagram)
  /-- an `SDSRV` of the operator -/
  | operator (data : Bytes)
  /-- the event is set from outside -/
  | disconnect
  /-- `run` is cancelled -/
  | cancel
  /-- the closed transport calls `connection_lost` -/
  | lost
  /-- one of the three tasks runs -/
  | task (e : UdpServer.Event)
  deriving DecidableEq, Repr

/-- Put the state behind a step of one of the tasks in place. -/
def ran (h : UdpHandler) (s : UdpServer) : UdpHandler :=
  { h with server := s, losing := h.losing || decide (h.server.closes < s.closes) }

def runTask (h : UdpHandler) (e : UdpServer.Event) : Option (UdpHandler × List Effect) :=
  (h.server.step e).map fun r => (h.ran r.1, r.2)

/-- A step of a task; what it takes from a queue is what is first there. -/
def taskStep (h : UdpHandler) : UdpServer.Event → Option (UdpHandler × List Effect)
  | .opened _ | .openFailed _ | .sent | .sendFailed _ => none
  | .runReceived d =>
    match h.in_queue with
    | [] => none
    | d' :: rest => if d = d' then { h with in_queue := rest }.runTask (.runReceived d) else none
  | .writerGot data raises =>
    match h.writer_queue with
    | [] => none
    | data' :: rest => if data = data' then { h with writer_queue := rest }.runTask (.writerGot data raises) else none
  | e => h.runTask e

def step (h : UdpHandler) : Event → Option (UdpHandler × List Effect)
  | .arrives d => some ({ h with in_queue := h.in_queue ++ [d] }, [])
  | .operator data => some ({ h with writer_queue := h.writer_queue ++ [data] }, [])
  | .disconnect => some ({ h with server := { h.server with disconnected := true } }, [])
  | .cancel =>
    some ({ h with server := { h.server with runCancelled := h.server.runCancelled || h.server.run.isLive } }, [])
  | .lost => if h.losing then some ({ h with losing := false, in_queue := h.in_queue ++ [.error none] }, []) else none
  | .task e => h.taskStep e

/-- `run` has started the other two tasks and waits for its queue. -/
structure Started (h : UdpHandler) : Prop where
  run : h.server.run = .waiting
  watchdog : h.server.watchdog = .created ∧ h.server.watchdogCancelled = false
  writer : h.server.writer = .created ∧ h.server.writerCancelled = false
  running : h.server.running = true
  closes : h.server.closes = 0
  losing : h.losing = false

/-- What should end the handler. -/
def Event.IsTrigger : Event → Prop
  | .arrives (.error _) => True
  | .operator data => data = []
  | .disconnect => True
  | .cancel => True
  | .task .runSendFailed => True
  | .task (.writerGot _ raises) => raises = true
  | _ => False

/-- The event is a step of the handler or of the transport, not of what is outside. -/
def Event.IsTask : Event → Prop
  | .lost => True
  | .task _ => True
  | _ => False

/-- Nothing is left to run. -/
def Quiet (h : UdpHandler) : Prop := ∀ e, e.IsTask → h.step e = none

/-- The errors in a queue. -/
def HasError (ds : List Datagram) : Prop := ∃ exc, .error exc ∈ ds

/-- What holds of a handler that has started, where `trig` says whether something should have ended it. -/
structure Inv (trig : Prop) (h : UdpHandler) : Prop where
  run : h.server.run = .waiting ∨ h.server.run = .sending ∨ h.server.run = .done
  watchdog : h.server.watchdog = .created ∨ h.server.watchdog = .waiting ∨ h.server.watchdog = .done
  writer : h.server.writer = .created ∨ h.server.writer = .waiting ∨ h.server.writer = .done
  closes : h.server.closes = if h.server.running then 0 else 1
  alive : h.server.running = true →
    h.server.run ≠ .done ∧ (h.server.watchdog ≠ .done ∧ h.server.watchdogCancelled = false) ∧
    h.server.writer ≠ .done ∧ h.server.writerCancelled = false
  stopped : h.server.running = false → (h.server.watchdog ≠ .done → h.server.watchdogCancelled = true) ∧
    (h.server.writer ≠ .done → h.server.writerCancelled = true) ∧
    (h.server.run ≠ .done → h.losing = true ∨ HasError h.in_queue)
  pending : h.server.running = true → trig →
    HasError h.in_queue ∨ [] ∈ h.writer_queue ∨ h.server.disconnected = true ∨ h.server.runCancelled = true

theorem Started.inv {h : UdpHandler} (hs : h.Started) : Inv False h where
  run := .inl hs.run
  watchdog := .inl hs.watchdog.1
  writer := .inl hs.writer.1
  closes := by rw [hs.closes, hs.running]; rfl
  alive _ := by
    rw [hs.run, hs.watchdog.1, hs.writer.1]
    exact ⟨by simp, ⟨by simp, hs.watchdog.2⟩, by simp, hs.writer.2⟩
  stopped hn := by
    rw [hs.running] at hn
    cases hn
  pending _ hf := hf.elim

/-- What is left to run, as a bound on the number of steps. -/
def work (h : UdpHandler) : Nat :=
  4 * h.server.running.toNat + 3 * h.losing.toNat + 2 * h.in_queue.length + h.writer_queue.length +
    rank h.server.run + rank h.server.watchdog + rank h.server.writer
where
  rank : TaskState → Nat
    | .none => 0
    | .created => 2
    | .waiting => 1
    | .sending => 2
    | .done => 0

variable {h h₁ h' : UdpHandler} {s : UdpServer} {trig trig' : Prop} {e : Event} {o : List Effect}

/-- A state in which one of the tasks has just ended. -/
structure Ending (h : UdpHandler) (s : UdpServer) : Prop where
  run : s.run = h.server.run ∨ s.run = .done
  watchdog : s.watchdog = h.server.watchdog ∧ s.watchdogCancelled = h.server.watchdogCancelled ∨ s.watchdog = .done
  writer : s.writer = h.server.writer ∧ s.writerCancelled = h.server.writerCancelled ∨ s.writer = .done
  closes : s.closes = h.server.closes
  running : s.running = h.server.running

theorem isLive_iff {t : TaskState} (ht : t ≠ .none) : t.isLive = true ↔ t ≠ .done := by
  cases t <;> simp_all [TaskState.isLive]

/-- The first task that ends closes the transport and cancels the others. -/
theorem Inv.terminate (hi : Inv trig h) (he : Ending h s) (hserver : h₁.server = h.server)
    (hlosing : h₁.losing = h.losing)
    (hqueue : s.run ≠ .done → h₁.in_queue = h.in_queue) : Inv trig' (h₁.ran s.terminate) := by
  have hrun : s.run = .waiting ∨ s.run = .sending ∨ s.run = .done := by
    rcases he.run with hr | hr
    · exact hr ▸ hi.run
    · exact .inr (.inr hr)
  have hwatchdog : s.watchdog = .created ∨ s.watchdog = .waiting ∨ s.watchdog = .done := by
    rcases he.watchdog with ⟨hr, -⟩ | hr
    · exact hr ▸ hi.watchdog
    · exact .inr (.inr hr)
  have hwriter : s.writer = .created ∨ s.writer = .waiting ∨ s.writer = .done := by
    rcases he.writer with ⟨hr, -⟩ | hr
    · exact hr ▸ hi.writer
    · exact .inr (.inr hr)
  have hcloses := hi.closes
  rw [← he.closes, ← he.running] at hcloses
  cases hr : s.running with
  | true =>
    rw [hr] at hcloses
    have hterm : s.terminate = { s with
        running := false, disconnected := true, closes := 1
        watchdogCancelled := s.watchdogCancelled || s.watchdog.isLive
        writerCancelled := s.writerCancelled || s.writer.isLive } := by
      rw [UdpServer.terminate, if_pos hr, hcloses]
      rfl
    rw [hterm]
    refine ⟨hrun, hwatchdog, hwriter, rfl, fun h => (by cases h), fun _ =>
      ⟨fun hw => ?_, fun hw => ?_, fun _ => .inl ?_⟩,
      fun h => (by cases h)⟩
    · have hlive : s.watchdog.isLive = true := (isLive_iff (by rcases hwatchdog with h | h | h <;> simp [h])).2 hw
      simp [ran, hlive]
    · have hlive : s.writer.isLive = true := (isLive_iff (by rcases hwriter with h | h | h <;> simp [h])).2 hw
      simp [ran, hlive]
    · have hzero : h₁.server.closes = 0 := by rw [hserver, ← he.closes, hcloses]; rfl
      simp [ran, hzero]
  | false =>
    rw [hr] at hcloses
    have hterm : s.terminate = s := by rw [UdpServer.terminate, hr]; rfl
    obtain ⟨hwd, hwr, hrn⟩ := hi.stopped (he.running.symm.trans hr)
    rw [hterm]
    refine ⟨hrun, hwatchdog, hwriter, by simp [ran, hr, hcloses], fun h => ?_, fun _ =>
      ⟨fun hw => ?_, fun hw => ?_, fun hd => ?_⟩,
      fun h => ?_⟩
    · exact absurd (hr.symm.trans h) (by simp)
    · rcases he.watchdog with ⟨ht, hc⟩ | ht
      · exact hc.trans (hwd (ht ▸ hw))
      · exact absurd ht hw
    · rcases he.writer with ⟨ht, hc⟩ | ht
      · exact hc.trans (hwr (ht ▸ hw))
      · exact absurd ht hw
    · rcases he.run with ht | ht
      · refine (hrn (ht ▸ hd)).imp (fun hl => ?_) fun herr => ?_
        · simp [ran, hlosing, hl]
        · rw [← hqueue hd] at herr
          exact herr
      · exact absurd ht hd
    · exact absurd (hr.symm.trans h) (by simp)

theorem work_terminate (hcloses : s.closes = h.server.closes) :
    work (h.ran s.terminate) ≤ work { h with server := s } := by
  unfold UdpServer.terminate
  split
  · rename_i hr
    have hlose := Bool.toNat_le (h.losing || decide (h.server.closes < s.closes + 1))
    simp only [work, ran, hr, Bool.toNat_true, Bool.toNat_false]
    omega
  · simp [work, ran, hcloses]

theorem Inv.mono (hi : Inv trig h) (ht : trig' → trig) : Inv trig' h :=
  ⟨hi.run, hi.watchdog, hi.writer, hi.closes, hi.alive, hi.stopped, fun hr h => hi.pending hr (ht h)⟩

/-- The state behind a step that closes nothing. -/
theorem ran_same (h : UdpHandler) {s : UdpServer} (hc : s.closes = h.server.closes) :
    h.ran s = { h with server := s } := by
  simp [ran, hc]

/-- A task goes on to its next wait, or takes something that is no trigger from its queue. -/
theorem Inv.goesOn (hi : Inv trig h) (r w t : TaskState) (q : List Datagram) (p : List Bytes)
    (hr : r = h.server.run ∨ h.server.run ≠ .done ∧ (r = .waiting ∨ r = .sending))
    (hw : w = h.server.watchdog ∨ h.server.watchdog = .created ∧ w = .waiting)
    (ht : t = h.server.writer ∨ h.server.writer = .created ∧ t = .waiting)
    (hq : HasError h.in_queue → HasError q) (hp : [] ∈ h.writer_queue → [] ∈ p) :
    Inv trig ({ h with in_queue := q, writer_queue := p }.ran
      { h.server with run := r, watchdog := w, writer := t }) := by
  have hrun : r ≠ .done ↔ h.server.run ≠ .done := by
    rcases hr with hr | ⟨hne, hr | hr⟩
    · rw [hr]
    · exact iff_of_true (by simp [hr]) hne
    · exact iff_of_true (by simp [hr]) hne
  have hwatchdog : w ≠ .done ↔ h.server.watchdog ≠ .done := by
    rcases hw with hw | ⟨hc, hw⟩
    · rw [hw]
    · exact iff_of_true (by simp [hw]) (by simp [hc])
  have hwriter : t ≠ .done ↔ h.server.writer ≠ .done := by
    rcases ht with ht | ⟨hc, ht⟩
    · rw [ht]
    · exact iff_of_true (by simp [ht]) (by simp [hc])
  have hran := ran_same (s := { h.server with run := r, watchdog := w, writer := t })
    { h with in_queue := q, writer_queue := p } rfl
  rw [hran]
  refine ⟨?_, ?_, ?_, hi.closes, ?_, ?_, fun hr ht => (hi.pending hr ht).imp hq (.imp_left hp)⟩
  · rcases hr with h | ⟨-, h | h⟩
    · exact h ▸ hi.run
    · exact .inl h
    · exact .inr (.inl h)
  · rcases hw with h | ⟨-, h⟩
    · exact h ▸ hi.watchdog
    · exact .inr (.inl h)
  · rcases ht with h | ⟨-, h⟩
    · exact h ▸ hi.writer
    · exact .inr (.inl h)
  · intro hrunning
    obtain ⟨h₁, ⟨h₂, hc₁⟩, h₃, hc₂⟩ := hi.alive hrunning
    exact ⟨hrun.2 h₁, ⟨hwatchdog.2 h₂, hc₁⟩, hwriter.2 h₃, hc₂⟩
  · intro hrunning
    obtain ⟨h₁, h₂, h₃⟩ := hi.stopped hrunning
    exact ⟨fun hw => h₁ (hwatchdog.1 hw), fun ht => h₂ (hwriter.1 ht), fun hr => (h₃ (hrun.1 hr)).imp_right hq⟩

theorem hasError_tail {data : Bytes} {ip : String} {port : Int} {q : List Datagram}
    (h : HasError (.data data ip port :: q)) : HasError q := by
  obtain ⟨exc, hexc⟩ := h
  exact ⟨exc, by simpa using hexc⟩

theorem runEnding (h : UdpHandler) (c : Bool) : Ending h { h.server with run := .done, runCancelled := c } :=
  ⟨.inr rfl, .inl ⟨rfl, rfl⟩, .inl ⟨rfl, rfl⟩, rfl, rfl⟩

/-- `run` takes a step: it ends, or goes on. -/
theorem Inv.runStep (hi : Inv trig h) {e : UdpServer.Event} (hs : h.taskStep e = some (h', o))
    (he : (∃ d, e = .runReceived d) ∨ e = .runSent ∨ e = .runSendFailed ∨ e = .runCancel) :
    Inv (trig ∨ (Event.task e).IsTrigger) h' ∧ work h' < work h := by
  rcases he with ⟨d, rfl⟩ | rfl | rfl | rfl
  · simp only [taskStep] at hs
    cases hq : h.in_queue with
    | nil => simp [hq] at hs
    | cons d' rest =>
      simp only [hq, UdpHandler.runTask, UdpServer.step] at hs
      split_ifs at hs with hd hrun
      · subst hd
        cases d with
        | data data ip port =>
          cases hs
          refine ⟨(hi.goesOn .sending h.server.watchdog h.server.writer rest h.writer_queue
            (.inr ⟨by simp [hrun.1], .inr rfl⟩)
            (.inl rfl) (.inl rfl) (fun herr => hasError_tail (hq ▸ herr)) id).mono (by simp [Event.IsTrigger]), ?_⟩
          simp [work, work.rank, ran, hrun.1, hq]
          omega
        | error exc =>
          cases hs
          refine ⟨hi.terminate (runEnding h _) rfl rfl fun hne => absurd rfl hne, ?_⟩
          refine lt_of_le_of_lt (work_terminate rfl) ?_
          simp [work, work.rank, hrun.1, hq]
      · cases hs
  · simp only [taskStep, UdpHandler.runTask, UdpServer.step] at hs
    split_ifs at hs with hrun
    · cases hs
      refine ⟨(hi.goesOn .waiting h.server.watchdog h.server.writer h.in_queue h.writer_queue
        (.inr ⟨by simp [hrun.1], .inl rfl⟩)
        (.inl rfl) (.inl rfl) id id).mono (by simp [Event.IsTrigger]), ?_⟩
      simp [work, work.rank, ran, hrun.1]
    · cases hs
  · simp only [taskStep, UdpHandler.runTask, UdpServer.step] at hs
    split_ifs at hs with hrun
    · cases hs
      refine ⟨hi.terminate (runEnding h _) rfl rfl fun hne => absurd rfl hne, ?_⟩
      refine lt_of_le_of_lt (work_terminate rfl) ?_
      simp [work, work.rank, hrun.1]
    · cases hs
  · simp only [taskStep, UdpHandler.runTask, UdpServer.step] at hs
    split_ifs at hs with hcancelled
    · rcases hi.run with hrun | hrun | hrun <;> simp only [hrun] at hs <;> cases hs
      all_goals
        refine ⟨hi.terminate (runEnding h _) rfl rfl fun hne => absurd rfl hne, ?_⟩
        refine lt_of_le_of_lt (work_terminate rfl) ?_
        simp [work, work.rank, hrun]
    · cases hs

theorem watchdogEnding (h : UdpHandler) (c : Bool) :
    Ending h { h.server with watchdog := .done, watchdogCancelled := c } :=
  ⟨.inl rfl, .inr rfl, .inl ⟨rfl, rfl⟩, rfl, rfl⟩

theorem writerEnding (h : UdpHandler) (c : Bool) : Ending h { h.server with writer := .done, writerCancelled := c } :=
  ⟨.inl rfl, .inl ⟨rfl, rfl⟩, .inr rfl, rfl, rfl⟩

/-- A task that has been cancelled ends without closing anything: the handler has stopped. -/
theorem Inv.cancelled (hi : Inv trig h) (he : Ending h s)
    (hc : h.server.watchdogCancelled = true ∨ h.server.writerCancelled = true) :
    Inv trig' (h.ran s) := by
  have hstopped : h.server.running = false := by
    cases hr : h.server.running with
    | false => rfl
    | true =>
      obtain ⟨-, ⟨-, hwd⟩, -, hw⟩ := hi.alive hr
      simp [hwd, hw] at hc
  have hterm : s.terminate = s := by rw [UdpServer.terminate, he.running, hstopped]; rfl
  have hend : Inv trig' (h.ran s.terminate) := hi.terminate he rfl rfl fun _ => rfl
  rwa [hterm] at hend

theorem Inv.watchdogStep (hi : Inv trig h) {e : UdpServer.Event} (hs : h.taskStep e = some (h', o))
    (he : e = .watchdogStart ∨ e = .watchdogWake ∨ e = .watchdogCancel) :
    Inv (trig ∨ (Event.task e).IsTrigger) h' ∧ work h' < work h := by
  rcases he with rfl | rfl | rfl
  · simp only [taskStep, UdpHandler.runTask, UdpServer.step] at hs
    split_ifs at hs with hw
    · cases hs
      refine ⟨(hi.goesOn h.server.run .waiting h.server.writer h.in_queue h.writer_queue (.inl rfl) (.inr ⟨hw.1, rfl⟩)
        (.inl rfl) id id).mono (by simp [Event.IsTrigger]), ?_⟩
      simp [work, work.rank, ran, hw.1]
    · cases hs
  · simp only [taskStep, UdpHandler.runTask, UdpServer.step] at hs
    split_ifs at hs with hw
    · cases hs
      refine ⟨hi.terminate (watchdogEnding h _) rfl rfl fun _ => rfl, ?_⟩
      refine lt_of_le_of_lt (work_terminate rfl) ?_
      simp [work, work.rank, hw.1]
    · cases hs
  · simp only [taskStep, UdpHandler.runTask, UdpServer.step] at hs
    split_ifs at hs with hw
    · cases hs
      refine ⟨hi.cancelled (watchdogEnding h _) (.inl hw.1), ?_⟩
      rcases hi.watchdog with hwd | hwd | hwd
      · simp [work, work.rank, ran, hwd]
      · simp [work, work.rank, ran, hwd]
      · simp [hwd, TaskState.isLive] at hw
    · cases hs

theorem Inv.writerStep (hi : Inv trig h) {e : UdpServer.Event} (hs : h.taskStep e = some (h', o))
    (he : e = .writerStart ∨ (∃ data raises, e = .writerGot data raises) ∨ e = .writerCancel) :
    Inv (trig ∨ (Event.task e).IsTrigger) h' ∧ work h' < work h := by
  rcases he with rfl | ⟨data, raises, rfl⟩ | rfl
  · simp only [taskStep, UdpHandler.runTask, UdpServer.step] at hs
    split_ifs at hs with hw
    · cases hs
      refine ⟨(hi.goesOn h.server.run h.server.watchdog .waiting h.in_queue h.writer_queue (.inl rfl) (.inl rfl)
        (.inr ⟨hw.1, rfl⟩) id id).mono (by simp [Event.IsTrigger]), ?_⟩
      simp [work, work.rank, ran, hw.1]
    · cases hs
  · simp only [taskStep] at hs
    cases hq : h.writer_queue with
    | nil => simp [hq] at hs
    | cons data' rest =>
      simp only [hq, UdpHandler.runTask, UdpServer.step] at hs
      split_ifs at hs with hd hw hstop
      · subst hd
        cases hs
        refine ⟨hi.terminate (writerEnding h _) rfl rfl fun _ => rfl, ?_⟩
        refine lt_of_le_of_lt (work_terminate rfl) ?_
        simp [work, work.rank, hw.1, hq]
      · subst hd
        cases hs
        obtain ⟨hne, hraises⟩ := not_or.1 hstop
        refine ⟨(hi.goesOn h.server.run h.server.watchdog h.server.writer h.in_queue rest (.inl rfl) (.inl rfl)
          (.inl rfl) id
          fun hmem => ?_).mono (by simp [Event.IsTrigger, hraises]), ?_⟩
        · rw [hq] at hmem
          exact (List.mem_cons.1 hmem).resolve_left fun h => hne h.symm
        · simp [work, ran, hq]
      · cases hs
  · simp only [taskStep, UdpHandler.runTask, UdpServer.step] at hs
    split_ifs at hs with hc
    · rcases hi.writer with hw | hw | hw <;> simp only [hw] at hs <;> cases hs
      · exact ⟨hi.cancelled (writerEnding h _) (.inr hc), by simp [work, work.rank, ran, hw]⟩
      · refine ⟨hi.terminate (writerEnding h _) rfl rfl fun _ => rfl, ?_⟩
        refine lt_of_le_of_lt (work_terminate rfl) ?_
        simp [work, work.rank, hw]
    · cases hs

theorem Inv.taskStep (hi : Inv trig h) {e : UdpServer.Event} (hs : h.taskStep e = some (h', o)) :
    Inv (trig ∨ (Event.task e).IsTrigger) h' ∧ work h' < work h := by
  cases e with
  | runReceived d => exact hi.runStep hs (.inl ⟨d, rfl⟩)
  | runSent => exact hi.runStep hs (.inr (.inl rfl))
  | runSendFailed => exact hi.runStep hs (.inr (.inr (.inl rfl)))
  | runCancel => exact hi.runStep hs (.inr (.inr (.inr rfl)))
  | watchdogStart => exact hi.watchdogStep hs (.inl rfl)
  | watchdogWake => exact hi.watchdogStep hs (.inr (.inl rfl))
  | watchdogCancel => exact hi.watchdogStep hs (.inr (.inr rfl))
  | writerStart => exact hi.writerStep hs (.inl rfl)
  | writerGot data raises => exact hi.writerStep hs (.inr (.inl ⟨data, raises, rfl⟩))
  | writerCancel => exact hi.writerStep hs (.inr (.inr rfl))
  | runStart =>
    simp only [UdpHandler.taskStep, UdpHandler.runTask, UdpServer.step] at hs
    split_ifs at hs with hrun
    · rcases hi.run with h | h | h <;> simp [h] at hrun
    · cases hs
  | _ => cases hs

theorem hasError_append {q : List Datagram} (d : Datagram) (h : HasError q) : HasError (q ++ [d]) := by
  obtain ⟨exc, hexc⟩ := h
  exact ⟨exc, List.mem_append_left _ hexc⟩

theorem Inv.step (hi : Inv trig h) (hs : h.step e = some (h', o)) : Inv (trig ∨ e.IsTrigger) h' := by
  cases e with
  | task e => exact (hi.taskStep hs).1
  | arrives d =>
    cases hs
    refine ⟨hi.run, hi.watchdog, hi.writer, hi.closes, hi.alive, fun hr => ?_, fun hr ht => ?_⟩
    · obtain ⟨hwd, hw, hrun⟩ := hi.stopped hr
      exact ⟨hwd, hw, fun hne => (hrun hne).imp_right (hasError_append d)⟩
    · rcases ht with ht | ht
      · exact (hi.pending hr ht).imp_left (hasError_append d)
      · cases d with
        | data data ip port => exact ht.elim
        | error exc => exact .inl ⟨exc, List.mem_append_right _ (List.mem_singleton.2 rfl)⟩
  | operator data =>
    cases hs
    refine ⟨hi.run, hi.watchdog, hi.writer, hi.closes, hi.alive, hi.stopped, fun hr ht => ?_⟩
    rcases ht with ht | ht
    · exact (hi.pending hr ht).imp_right (.imp_left fun hmem => List.mem_append_left _ hmem)
    · have hnil : data = [] := ht
      exact .inr (.inl (by simp [hnil]))
  | disconnect =>
    cases hs
    exact ⟨hi.run, hi.watchdog, hi.writer, hi.closes, hi.alive, hi.stopped, fun _ _ => .inr (.inr (.inl rfl))⟩
  | cancel =>
    cases hs
    refine ⟨hi.run, hi.watchdog, hi.writer, hi.closes, hi.alive, hi.stopped, fun hr _ => .inr (.inr (.inr ?_))⟩
    have hlive : h.server.run.isLive = true := by
      rcases hi.run with hrun | hrun | hrun
      · rw [hrun]; rfl
      · rw [hrun]; rfl
      · exact absurd hrun (hi.alive hr).1
    simp [hlive]
  | lost =>
    simp only [UdpHandler.step] at hs
    split_ifs at hs with hl
    cases hs
    refine ⟨hi.run, hi.watchdog, hi.writer, hi.closes, hi.alive, fun hr => ?_, fun hr ht => ?_⟩
    · obtain ⟨hwd, hw, -⟩ := hi.stopped hr
      exact ⟨hwd, hw, fun _ => .inr ⟨none, List.mem_append_right _ (List.mem_singleton.2 rfl)⟩⟩
    · rcases ht with ht | ht
      · exact (hi.pending hr ht).imp_left (hasError_append _)
      · exact ht.elim

theorem work_lt (hi : Inv trig h) (hs : h.step e = some (h', o)) (he : e.IsTask) : work h' < work h := by
  cases e with
  | task e => exact (hi.taskStep hs).2
  | lost =>
    simp only [UdpHandler.step] at hs
    split_ifs at hs with hl
    cases hs
    simp [work, hl]
    omega
  | _ => exact he.elim

/-- What the tasks and the transport do by themselves comes to an end. -/
theorem length_le_work {es : List Event} {os : List Effect} (hrun : Run step h es h' os) (hi : Inv trig h)
    (hes : ∀ e ∈ es, e.IsTask) : es.length ≤ work h := by
  induction hrun generalizing trig with
  | nil => exact Nat.zero_le _
  | cons hs _ ih =>
    have hlt := work_lt hi hs (hes _ List.mem_cons_self)
    have := ih (hi.step hs) fun e he => hes e (List.mem_cons_of_mem _ he)
    rw [List.length_cons]
    omega

/-- The transport has been closed once, and the three tasks are over. -/
structure ShutDown (h : UdpHandler) : Prop where
  closes : h.server.closes = 1
  watchdog : h.server.watchdog = .done
  writer : h.server.writer = .done
  run : h.server.run = .done

theorem Quiet.runCancelled (hq : h.Quiet) (hi : Inv trig h) (hrun : h.server.run ≠ .done) :
    h.server.runCancelled = false := by
  by_contra hc
  have hnone := hq (.task .runCancel) trivial
  rcases hi.run with hr | hr | hr
  · simp [step, UdpHandler.taskStep, UdpHandler.runTask, UdpServer.step, hc, hr] at hnone
  · simp [step, UdpHandler.taskStep, UdpHandler.runTask, UdpServer.step, hc, hr] at hnone
  · exact hrun hr

/-- A `run` that is left with nothing to do waits on an empty queue. -/
theorem Quiet.run (hq : h.Quiet) (hi : Inv trig h) (hrun : h.server.run ≠ .done) : h.in_queue = [] := by
  have hc := hq.runCancelled hi hrun
  have hwaiting : h.server.run = .waiting := by
    rcases hi.run with hr | hr | hr
    · exact hr
    · have hnone := hq (.task .runSent) trivial
      simp [step, UdpHandler.taskStep, UdpHandler.runTask, UdpServer.step, hr, hc] at hnone
    · exact absurd hr hrun
  cases hqueue : h.in_queue with
  | nil => rfl
  | cons d rest =>
    have hnone := hq (.task (.runReceived d)) trivial
    simp only [step, UdpHandler.taskStep, hqueue, if_true, UdpHandler.runTask, UdpServer.step, hwaiting, hc] at hnone
    cases d <;> simp at hnone

theorem Quiet.watchdog (hq : h.Quiet) (hi : Inv trig h) (hd : h.server.watchdog ≠ .done) :
    h.server.watchdogCancelled = false ∧ h.server.disconnected = false := by
  have hcancelled : h.server.watchdogCancelled = false := by
    by_contra hc
    have hnone := hq (.task .watchdogCancel) trivial
    rcases hi.watchdog with hw | hw | hw
    · simp [step, UdpHandler.taskStep, UdpHandler.runTask, UdpServer.step, hc, hw, TaskState.isLive] at hnone
    · simp [step, UdpHandler.taskStep, UdpHandler.runTask, UdpServer.step, hc, hw, TaskState.isLive] at hnone
    · exact hd hw
  refine ⟨hcancelled, ?_⟩
  by_contra hdis
  rcases hi.watchdog with hw | hw | hw
  · have hnone := hq (.task .watchdogStart) trivial
    simp [step, UdpHandler.taskStep, UdpHandler.runTask, UdpServer.step, hcancelled, hw] at hnone
  · have hnone := hq (.task .watchdogWake) trivial
    simp [step, UdpHandler.taskStep, UdpHandler.runTask, UdpServer.step, hcancelled, hw, hdis] at hnone
  · exact hd hw

theorem Quiet.writer (hq : h.Quiet) (hi : Inv trig h) (hd : h.server.writer ≠ .done) :
    h.server.writerCancelled = false ∧ h.writer_queue = [] := by
  have hcancelled : h.server.writerCancelled = false := by
    by_contra hc
    have hnone := hq (.task .writerCancel) trivial
    rcases hi.writer with hw | hw | hw
    · simp [step, UdpHandler.taskStep, UdpHandler.runTask, UdpServer.step, hc, hw] at hnone
    · simp [step, UdpHandler.taskStep, UdpHandler.runTask, UdpServer.step, hc, hw] at hnone
    · exact hd hw
  refine ⟨hcancelled, ?_⟩
  rcases hi.writer with hw | hw | hw
  · have hnone := hq (.task .writerStart) trivial
    simp [step, UdpHandler.taskStep, UdpHandler.runTask, UdpServer.step, hcancelled, hw] at hnone
  · cases hqueue : h.writer_queue with
    | nil => rfl
    | cons data rest =>
      have hnone := hq (.task (.writerGot data true)) trivial
      simp [step, UdpHandler.taskStep, hqueue, UdpHandler.runTask, UdpServer.step, hw, hcancelled] at hnone
  · exact absurd hw hd

theorem not_hasError_nil : ¬ HasError [] := fun ⟨_, hexc⟩ => by cases hexc

/-- When something has ended the handler and nothing is left to run, everything is over. -/
theorem Quiet.shutDown (hq : h.Quiet) (hi : Inv trig h) (ht : trig) : ShutDown h := by
  have hstopped : h.server.running = false := by
    by_contra hr
    obtain ⟨hrun, ⟨hwd, -⟩, hw, -⟩ := hi.alive (by simpa using hr)
    rcases hi.pending (by simpa using hr) ht with herr | hmem | hdis | hc
    · rw [hq.run hi hrun] at herr
      exact not_hasError_nil herr
    · rw [(hq.writer hi hw).2] at hmem
      cases hmem
    · rw [(hq.watchdog hi hwd).2] at hdis
      cases hdis
    · rw [hq.runCancelled hi hrun] at hc
      cases hc
  obtain ⟨hwd, hw, hrun⟩ := hi.stopped hstopped
  refine ⟨by rw [hi.closes, hstopped]; rfl, ?_, ?_, ?_⟩
  · by_contra hd
    have := hwd hd
    rw [(hq.watchdog hi hd).1] at this
    cases this
  · by_contra hd
    have := hw hd
    rw [(hq.writer hi hd).1] at this
    cases this
  · by_contra hd
    rcases hrun hd with hl | herr
    · have hnone := hq .lost trivial
      simp [step, hl] at hnone
    · rw [hq.run hi hd] at herr
      exact not_hasError_nil herr

theorem inv_of_run {es : List Event} {os : List Effect} (hs : h.Started) (hrun : Run step h es h' os) :
    Inv (∃ e ∈ es, e.IsTrigger) h' := by
  refine hrun.history_invariant_of (P := fun es h _ => Inv (∃ e ∈ es, e.IsTrigger) h) (A := fun _ => True) ?_
    (fun _ _ => trivial) (hs.inv.mono (by simp))
  intro es h h' e _ o _ hi hstep
  refine (hi.step hstep).mono ?_
  rintro ⟨e', hmem, he'⟩
  rcases List.mem_append.1 hmem with hmem | hmem
  · exact .inl ⟨e', hmem, he'⟩
  · exact .inr (List.mem_singleton.1 hmem ▸ he')

end UdpHandler

/-- A UDP server that has started closes its transport at most once; once anything should have ended it, its tasks
come to an end by themselves, and then the transport has been closed exactly once and all three are over. -/
theorem UdpHandler.shuts_down_once {h₀ h : UdpHandler} {es : List Event} {os : List Effect} (hs : h₀.Started)
    (hrun : Run step h₀ es h os) : h.server.closes ≤ 1 ∧
      (∀ es' h' os', Run step h es' h' os' → (∀ e ∈ es', e.IsTask) → es'.length ≤ h.work) ∧
      ((∃ e ∈ es, e.IsTrigger) → h.Quiet → h.ShutDown) := by
  have hi := inv_of_run hs hrun
  refine ⟨?_, fun es' h' os' hrun' hes' => length_le_work hrun' hi hes', fun ht hq => hq.shutDown hi ht⟩
  rw [hi.closes]
  split <;> omega

/-- `run` is cancelled and the operator's empty message comes in the same turn. -/
theorem UdpHandler.shuts_down_once_two : ∃ h os,
    Run step { server := ⟨[], true, .done, .waiting, .created, .created, false, false, false, true, false, 0⟩ }
      [.cancel, .operator [], .task .writerStart, .task (.writerGot [] false), .task .runCancel,
      .task .watchdogCancel, .lost]
      h os ∧ h.ShutDown :=
  have hs : Started { server := ⟨[], true, .done, .waiting, .created, .created, false, false, false, true, false, 0⟩ } :=
    ⟨rfl, ⟨rfl, rfl⟩, ⟨rfl, rfl⟩, rfl, rfl, rfl⟩
  have hrun : Run step
      { server := ⟨[], true, .done, .waiting, .created, .created, false, false, false, true, false, 0⟩ }
      [.cancel, .operator [], .task .writerStart, .task (.writerGot [] false), .task .runCancel,
      .task .watchdogCancel, .lost]
      _ _ := .of_exec rfl
  have hq : Quiet ⟨⟨[], true, .done, .done, .done, .done, false, false, false, false, true, 1⟩, [.error none],
      [], false⟩ := by
    intro e he
    cases e with
    | task e => cases e <;> simp [step, taskStep, runTask, UdpServer.step, TaskState.isLive]
    | lost => rfl
    | _ => exact he.elim
  ⟨_, _, hrun, (shuts_down_once hs hrun).2.2 ⟨.cancel, List.mem_cons_self, trivial⟩ hq⟩

end Wsnet
